import GuestCompiler.Identity.MacAddress
import GuestCompiler.Identity.Shake128
import GuestCompiler.Identity.Uuid
import GuestCompiler.Identity.Wwn
import GuestCompiler.Text.Base32Hex

/-!
# Seeded identities

A machine's identities are hashed from its id and name, a domain (what kind of identity it is) and
the name of the entity they are for. Each part is hashed behind its length, so that no two lists of
parts read the same.
-/
namespace GuestCompiler

structure Seed where
  id : Uuid
  name : String
  deriving DecidableEq

namespace Seed

/-- The labels of a kind of identity. -/
abbrev Domain := List String

def volumeWwn : Domain := ["volume", "wwn"]

def volumeSerial : Domain := ["volume", "serial-number"]

def connectionMac : Domain := ["connection", "mac"]

def deviceId : Domain := ["device", "id"]

def fileSystemGroup : Domain := ["privilege", "file-system", "group-id"]

/-- Bytes behind their number, written in eight bytes. -/
def prefixed (bytes : List UInt8) : List UInt8 := Text.bigEndian 8 bytes.length ++ bytes

/-- What is hashed: the id, and then the name and each part behind its length. -/
def framed (seed : Seed) (parts : List (List UInt8)) : List UInt8 :=
  seed.id.octets.toList ++ (Text.utf8 seed.name :: parts).flatMap prefixed

def parts (domain : Domain) (entity : String) : List (List UInt8) :=
  domain.map Text.utf8 ++ [Text.utf8 entity]

def derive (seed : Seed) (domain : Domain) (entity : String) (n : Nat) : Octets n :=
  Shake128.hash (seed.framed (parts domain entity)) n

/-- Network address authority 5 and the organisation 52:54:00 over eight bytes. -/
def brandWwn (o : Octets 8) : Wwn :=
  .w64 ((((o.modify 0 fun _ => 0x55).modify 1 fun _ => 0x25).modify 2 fun _ => 0x40).modify 3
    (· &&& 0x0F))

/-- The locally administered addresses that begin 52:54:00. -/
def brandMac (o : Octets 6) : MacAddress :=
  ⟨((o.modify 0 fun _ => 0x52).modify 1 fun _ => 0x54).modify 2 fun _ => 0⟩

/-- Version 4 and the variant with the bits 10. -/
def brandUuid (o : Octets 16) : Uuid :=
  ⟨(o.modify 6 fun b => (b &&& 0x0F) ||| 0x40).modify 8 fun b => (b &&& 0x3F) ||| 0x80⟩

def wwn (seed : Seed) (domain : Domain) (entity : String) : Wwn :=
  brandWwn (seed.derive domain entity 8)

def serial (seed : Seed) (domain : Domain) (entity : String) : String :=
  String.ofList (Text.Base32Hex.encode (seed.derive domain entity 16).toList)

def mac (seed : Seed) (domain : Domain) (entity : String) : MacAddress :=
  brandMac (seed.derive domain entity 6)

def uuid (seed : Seed) (domain : Domain) (entity : String) : Uuid :=
  brandUuid (seed.derive domain entity 16)

/-- The least group id, above those of a system and its users. -/
def groupIdMin : UInt32 := 65536

/-- The bound that group ids stay below. -/
def groupIdBound : UInt32 := 2147483647

def groupOfBytes (o : Octets 4) : UInt32 :=
  groupIdMin + UInt32.ofNat o.bits % (groupIdBound - groupIdMin)

/-- Another round gives another id, for a host where the first one is taken. -/
def groupId (seed : Seed) (domain : Domain) (round : UInt64) : UInt32 :=
  groupOfBytes (Shake128.hash
    (seed.framed (domain.map Text.utf8 ++ [Text.bigEndian 8 round.toNat])) 4)

end Seed

end GuestCompiler
