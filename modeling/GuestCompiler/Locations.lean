import GuestCompiler.Json.Codec

/-!
# Locations

Where records are kept and where sockets are made.
-/
namespace GuestCompiler

open Json

structure Locations where
  confDir : Path := ⟨"/etc/qforge"⟩
  runDir : Path := ⟨"/run/qforge"⟩
  deriving DecidableEq

namespace Locations

/-- The standard locations, with what is set and not empty in place of them. -/
def ofSettings (confDir runDir : Option String) : Locations :=
  let standard : Locations := {}
  { confDir := ((confDir.filter (· ≠ "")).map Path.mk).getD standard.confDir
    runDir := ((runDir.filter (· ≠ "")).map Path.mk).getD standard.runDir }

def codec : Codec Locations := .record {} [
  .always "conf_dir" .path confDir fun x l => { l with confDir := x },
  .always "run_dir" .path runDir fun x l => { l with runDir := x }]

/-- What the names of records end in. -/
def recordSuffix : String := ".conf.json"

def systemFile (l : Locations) : Path := l.confDir.join "qforge.conf.json"

def systemDir (l : Locations) : Path := l.confDir.join "system.conf.d"

def machineDir (l : Locations) : Path := l.confDir.join "machine.conf.d"

def machineFile (l : Locations) (name : String) : Path := l.machineDir.join (name ++ recordSuffix)

end Locations

end GuestCompiler
