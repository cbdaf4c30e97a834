import GuestCompiler.Identity.Wwn
import GuestCompiler.Pattern.Port

/-!
# Errors

Every way in which compiling a machine, or reading a record, can fail, by cause. The wording of each
is in `message`.
-/
namespace GuestCompiler

/-- Why a text is no hardware identity. -/
inductive IdentityFault
  | wwn (text : String) (fault : Wwn.Fault)
  | mac (text : String)
  deriving DecidableEq

/-- Why a record could not be decoded. -/
inductive RecordFault
  | malformed
  | identity (fault : IdentityFault)
  deriving DecidableEq

/-- What is wrong with a configured value. -/
inductive ConfigFault
  | stated (reason : String)
  | unreadable (path : String)
  | undecodable (path : String)
  | port (pattern : String) (fault : Pattern.PortFault)
  | portOf (service pattern : String) (fault : Pattern.PortFault)
  | noAgentPort
  deriving DecidableEq

/-- What is wrong with an argument. -/
inductive ArgumentFault
  | stated (reason : String)
  | identity (fault : IdentityFault)
  | unnamed (registry : String)
  | longCharDeviceId (id : String) (limit : Nat)
  | noRootPort (position : Nat)
  | noController (position : Nat)
  | wrongController (controller wanted : String)
  | noMac (connection : String)
  | noDeviceId (device : String)
  deriving DecidableEq

inductive Error
  | config (fault : ConfigFault)
  | unresolved (kind referencer reference : String)
  | capacity (resource : String) (limit count : Nat)
  | occupied (port : String)
  | duplicateName (registry name : String)
  | unsupportedType (pool kind : String)
  | invalidArgument (fault : ArgumentFault)
  | machine (name : String) (source : Error)
  | io
  | record (fault : RecordFault)
  deriving DecidableEq

/-- A byte between single quotes, as the Latin-1 character of its number; what cannot be shown is
written by its number. -/
def quoteByte (b : UInt8) : String :=
  let n := b.toNat
  let shown :=
    if n = 0 then ['\\', '0']
    else if n = 9 then ['\\', 't']
    else if n = 10 then ['\\', 'n']
    else if n = 13 then ['\\', 'r']
    else if n = 39 ∨ n = 92 then ['\\', Char.ofNat n]
    else if n < 32 ∨ 127 ≤ n ∧ n ≤ 160 ∨ n = 173 then
      '\\' :: 'u' :: '\x7b' :: (Nat.toDigits 16 n ++ ['\x7d'])
    else [Char.ofNat n]
  String.ofList ('\'' :: (shown ++ ['\'']))

def Wwn.Fault.message : Wwn.Fault → String
  | oddLength => "Odd number of digits"
  | badCharacter byte position => s!"Invalid character {quoteByte byte} at position {position}"
  | noBytes => "expected 8 or 16 bytes, got 0"
  | unknownAuthority naa => s!"unrecognized network address authority type {naa}"
  | wrongLength naa wanted got =>
    s!"network address authority type {naa} needs {wanted} bytes, got {got}"

def IdentityFault.message : IdentityFault → String
  | wwn text fault => s!"wwn \"{text}\": {fault.message}"
  | mac text => s!"invalid hardware address \"{text}\""

def RecordFault.message : RecordFault → String
  | malformed => "malformed record"
  | identity fault => s!"invalid argument: {fault.message}"

def ConfigFault.message : ConfigFault → String
  | stated reason => reason
  | unreadable path => s!"failed to read {path}"
  | undecodable path => s!"failed to parse {path}"
  | port pattern fault => s!"port pattern \"{pattern}\": {fault.message}"
  | portOf service pattern fault =>
    s!"failed to determine {service} port: configuration error: " ++
      s!"port pattern \"{pattern}\": {fault.message}"
  | noAgentPort => "missing QEMU guest agent port"

def ArgumentFault.message : ArgumentFault → String
  | stated reason => reason
  | identity fault => fault.message
  | unnamed registry => s!"{registry} entries require a name"
  | longCharDeviceId id limit => s!"character device id \"{id}\" exceeds {limit} characters"
  | noRootPort position => s!"no root port at topology position {position}"
  | noController position => s!"no controller at topology position {position}"
  | wrongController controller wanted => s!"{controller} cannot host {wanted} devices"
  | noMac connection => s!"connection {connection} has no MAC address"
  | noDeviceId device => s!"device {device} has no id"

namespace Error

def message : Error → String
  | config fault => s!"configuration error: {fault.message}"
  | unresolved kind referencer reference =>
    s!"{referencer} uses an unspecified {kind}: {reference}"
  | capacity resource limit count =>
    s!"{resource} is full: limit of {limit} reached with {count} attached"
  | occupied port => s!"port {port} is already occupied by a downstream device"
  | duplicateName registry name => s!"{registry} already contains an entry named \"{name}\""
  | unsupportedType pool kind =>
    s!"storage pool \"{pool}\" has storage type \"{kind}\" which has no handler defined"
  | invalidArgument fault => s!"invalid argument: {fault.message}"
  | machine name source => s!"machine {name}: {source.message}"
  | io => "I/O error"
  | record fault => s!"JSON error: {fault.message}"

/-- The error with the name of the machine it arose for; a name that it carries already stays. -/
def forMachine (e : Error) (name : String) : Error :=
  match e with
  | machine _ _ => e
  | e => machine name e

/-- The error below every machine name. -/
def root : Error → Error
  | machine _ source => source.root
  | e => e

def isConfiguration (e : Error) : Bool :=
  match e.root with
  | config _ | unresolved _ _ _ => true
  | _ => false

def isCapacity (e : Error) : Bool := e.root matches capacity _ _ _

def isOccupied (e : Error) : Bool := e.root matches occupied _

def isDuplicateName (e : Error) : Bool := e.root matches duplicateName _ _

def isUnsupportedType (e : Error) : Bool := e.root matches unsupportedType _ _

end Error

end GuestCompiler
