import FileGate.Session.SealedStore
import FileGate.Settings

namespace FileGate

structure Opening where
  config : Config
  store : SessionStore

namespace Opening

/-- Opens the store that a configuration asks for. An explicit key counts before the environment's
and the settings'. -/
def ofConfig (env : Environment) (c : Config) (key settings : Value) (d : Disk) :
    Except Failure (Opening × Disk) :=
  let key := match key with
    | .null => secretKey env settings
    | k => k
  if c.sessionFile.truthy && key.truthy then
    match c.sessionFile, key with
    | .text path, .text secret =>
      let (s, d) := SealedStore.make path secret d
      .ok (⟨c, .sealed s⟩, d)
    | .text _, _ => .error .noMember
    | _, _ => .error .wrongType
  else .ok (⟨c, .memory []⟩, d)

def ofFile (env : Environment) (path : String) (d : Disk) : Except Failure (Opening × Disk) := do
  let settings ← Settings.load path d
  ofConfig env (← Settings.config env settings) .null settings d

end Opening
end FileGate
