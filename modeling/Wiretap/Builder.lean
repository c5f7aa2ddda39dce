import Wiretap.Channel

/-! How options are put together. They begin as the defaults, with a name of their own, and each setting
replaces one of them: the last one counts. The ends are one option, for whichever transport they are
given. -/

namespace Wiretap

/-- One option that is set. -/
inductive Setting
  | id (name : String)
  | shared (b : Bool)
  | zeroBytes (b : Bool)
  | fileHeader (b : Bool)
  | forced (ends : ForcedChannel)
deriving DecidableEq, Repr

namespace Options

def set (o : Options) : Setting → Options
  | .id name => { o with id := name }
  | .shared b => { o with shared := b }
  | .zeroBytes b => { o with zeroBytes := b }
  | .fileHeader b => { o with fileHeader := b }
  | .forced ends => { o with forced := some ends }

/-- The settings one after another, on the defaults. -/
def built (id : String) (settings : List Setting) : Options := settings.foldl set { id }

end Options

end Wiretap
