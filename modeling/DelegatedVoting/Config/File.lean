import DelegatedVoting.Config.Written
import DelegatedVoting.Files

/-!
# Configuration files

* `Config.ofFile`: the configuration in a file.
-/

namespace DelegatedVoting

/-- The configuration in a file. -/
def Config.ofFile (path : String) (fs : Files) : Except ConfigError Config := do
  let text ← (fs.readText path).mapError fun p => .file path p.message
  Config.read text

end DelegatedVoting
