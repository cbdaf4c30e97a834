import GuestCompiler.Error
import GuestCompiler.Json.Reader
import GuestCompiler.NameMap
import GuestCompiler.Path

/-!
# Records as JSON

A codec is both directions of a form: what a value reads as, and how it is written. A record is a
list of members, each of which reads its value into the record and writes it out again, or leaves it
out. Entries are read in the order of the text and the first fault is the answer.

A member that no record knows is passed over. It has to be whole, but may hold what could not be
kept. A member given twice is a fault; of a name given twice in a map the last value stays.

A record may also be written as an array of the values of its members, in the order of the members.
The members behind the last value stay unset, and a value behind the last member is a fault.
-/
namespace GuestCompiler.Json

structure Codec (α : Type) where
  decode : Value → Except RecordFault α
  encode : α → Value

namespace Codec

def string : Codec String where
  decode
    | .text (some s) => .ok s
    | _ => .error .malformed
  encode := .ofString

def bool : Codec Bool where
  decode
    | .bool b => .ok b
    | _ => .error .malformed
  encode := .bool

def decodeNat (limit : Nat) : Value → Except RecordFault Nat
  | .number n =>
    match n.toNat? with
    | some n => if n < limit then .ok n else .error .malformed
    | none => .error .malformed
  | _ => .error .malformed

def uint16 : Codec UInt16 where
  decode v := (decodeNat UInt16.size v).map UInt16.ofNat
  encode n := .ofNat n.toNat

def uint32 : Codec UInt32 where
  decode v := (decodeNat UInt32.size v).map UInt32.ofNat
  encode n := .ofNat n.toNat

def path : Codec Path where
  decode v := (string.decode v).map Path.mk
  encode p := .ofString p.text

def ofText {α : Type} (parse : String → Except RecordFault α) (print : α → String) : Codec α where
  decode v := string.decode v >>= parse
  encode a := .ofString (print a)

/-- A value that `null` and the empty text leave absent. -/
def absentWhenEmpty {α : Type} (c : Codec α) : Codec (Option α) where
  decode
    | .null => .ok none
    | .text (some "") => .ok none
    | v => (c.decode v).map some
  encode
    | none => .null
    | some a => c.encode a

def list {α : Type} (c : Codec α) : Codec (List α) where
  decode
    | .array items => items.mapM c.decode
    | _ => .error .malformed
  encode as := .array (as.map c.encode)

def decodeEntries {α : Type} (c : Codec α) :
    List (Option String × Value) → NameMap α → Except RecordFault (NameMap α)
  | [], m => .ok m
  | (none, _) :: _, _ => .error .malformed
  | (some name, v) :: rest, m => do
    let a ← c.decode v
    decodeEntries c rest (m.insert name a)

def nameMap {α : Type} (c : Codec α) : Codec (NameMap α) where
  decode
    | .object entries => decodeEntries c entries ∅
    | _ => .error .malformed
  encode m := .ofEntries (m.entries.map fun e => (e.1, c.encode e.2))

end Codec

/-- A named part of a record: how it is read into the record, and how it is written unless it is
left out. -/
structure Member (α : Type) where
  name : String
  read : Value → α → Except RecordFault α
  write : α → Option Value

namespace Member

variable {α β : Type}

def always (name : String) (c : Codec β) (get : α → β) (set : β → α → α) : Member α where
  name := name
  read v a := (c.decode v).map fun b => set b a
  write a := some (c.encode (get a))

/-- A part that is left out where it is unset. -/
def optional (name : String) (c : Codec β) (isUnset : β → Bool) (get : α → β) (set : β → α → α) :
    Member α where
  name := name
  read v a := (c.decode v).map fun b => set b a
  write a := if isUnset (get a) then none else some (c.encode (get a))

def string (name : String) (get : α → String) (set : String → α → α) : Member α :=
  optional name Codec.string (· == "") get set

def flag (name : String) (get : α → Bool) (set : Bool → α → α) : Member α :=
  optional name Codec.bool (!·) get set

def uint16 (name : String) (get : α → UInt16) (set : UInt16 → α → α) : Member α :=
  optional name Codec.uint16 (· == 0) get set

def uint32 (name : String) (get : α → UInt32) (set : UInt32 → α → α) : Member α :=
  optional name Codec.uint32 (· == 0) get set

def option (name : String) (c : Codec β) (get : α → Option β) (set : Option β → α → α) : Member α :=
  optional name c.absentWhenEmpty Option.isNone get set

def list (name : String) (c : Codec β) (get : α → List β) (set : List β → α → α) : Member α :=
  optional name c.list List.isEmpty get set

def nameMap (name : String) (c : Codec β) (get : α → NameMap β) (set : NameMap β → α → α) : Member α :=
  optional name c.nameMap NameMap.isEmpty get set

/-- Read entries into a record; `seen` are the members already read. -/
def readAll (members : List (Member α)) :
    List String → List (Option String × Value) → α → Except RecordFault α
  | _, [], a => .ok a
  | _, (none, _) :: _, _ => .error .malformed
  | seen, (some key, v) :: rest, a =>
    match members.find? (·.name == key) with
    | none => if v.isWhole then readAll members seen rest a else .error .malformed
    | some member =>
      if key ∈ seen then .error .malformed
      else do
        let a ← member.read v a
        readAll members (key :: seen) rest a

/-- Read values into a record, each as that of the next member. -/
def readInOrder : List (Member α) → List Value → α → Except RecordFault α
  | _, [], a => .ok a
  | [], _ :: _, _ => .error .malformed
  | member :: members, v :: rest, a => do
    let a ← member.read v a
    readInOrder members rest a

def writeAll (members : List (Member α)) (a : α) : List (String × Value) :=
  members.filterMap fun member => (member.write a).map (member.name, ·)

/-- Read the entries that belong to some members, and keep the others for later. -/
def readOwn (members : List (Member α)) (depth : Nat) :
    List String → List (Option String × Value) → α →
      Except RecordFault (α × List (Option String × Value))
  | _, [], a => .ok (a, [])
  | _, (none, _) :: _, _ => .error .malformed
  | seen, (some key, v) :: rest, a =>
    match members.find? (·.name == key) with
    | none =>
      if v.isSound depth then do
        let (a, kept) ← readOwn members depth seen rest a
        return (a, (some key, v) :: kept)
      else .error .malformed
    | some member =>
      if key ∈ seen then .error .malformed
      else do
        let a ← member.read v a
        readOwn members depth (key :: seen) rest a

end Member

namespace Codec

variable {α β : Type}

/-- A record whose missing members are those of a given one. -/
def record (unset : α) (members : List (Member α)) : Codec α where
  decode
    | .object entries => Member.readAll members [] entries unset
    | .array values => Member.readInOrder members values unset
    | _ => .error .malformed
  encode a := .ofEntries (Member.writeAll members a)

/-- The levels of brackets that a text may hold. -/
def maxDepth : Nat := 127

/-- A record that holds another whose members stand beside its own. The outer members are read as
they come; all others are kept until the text has been read, and so have to be sound. As an array it
is not read: its members stand in no one order. -/
def flattened (unset : α) (own : List (Member α)) (inner : β) (members : List (Member β))
    (get : α → β) (set : β → α → α) : Codec α where
  decode
    | .object entries => do
      let (a, kept) ← Member.readOwn own (maxDepth - 1) [] entries unset
      let b ← Member.readAll members [] kept inner
      return set b a
    | _ => .error .malformed
  encode a := .ofEntries (Member.writeAll own a ++ Member.writeAll members (get a))

def decodeDocument (c : Codec α) (d : Document) : Except RecordFault α := do
  let a ← c.decode d.value
  if d.ends then return a else throw .malformed

end Codec

end GuestCompiler.Json
