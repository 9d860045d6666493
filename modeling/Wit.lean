import Wit.Go.Strings
import Wit.Go.Strconv
import Wit.Semver.Version
import Wit.Semver.Grammar
import Wit.Semver.RoundTrip
import Wit.Semver.Canonical
import Wit.Package.Name
import Wit.Package.Grammar
import Wit.Package.RoundTrip
import Wit.Types
import Wit.Load
