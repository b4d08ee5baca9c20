import Inventory.Text.Fields
import Inventory.Text.Numeral

/-! Where a database is. Its name is a path, or a locator: `file:`, perhaps the local machine behind
two slashes, a path, parameters behind a question mark, and a remark behind a number sign. In a
locator any byte may be written as a percent sign with two hexadecimal digits. -/
namespace Inventory.CommandLine
set_option autoImplicit false

inductive Access where
  | readOnly
  | readWrite
  /-- As `readWrite`, and a file is made if there is none. -/
  | create
  /-- There is no file. -/
  | memory
  deriving DecidableEq

/-- The bits that stand for an access; what is asked for may not come to more than what has been
allowed before. -/
def Access.bits : Access → Nat
  | readOnly => 1
  | readWrite => 2
  | create => 6
  | memory => 128

/-- Why the name of a database leads nowhere. -/
inductive LocationFault where
  /-- The name has a null character, behind a number of bytes. -/
  | nullCharacter (position : Nat)
  /-- The locator names another machine. -/
  | authority (name : String)
  | unknownAccess (value : String)
  /-- An earlier parameter allows less. -/
  | deniedAccess (value : String)
  | unknownCache (value : String)
  | unknownSystem (name : String)
  deriving DecidableEq

def LocationFault.message : LocationFault → String
  | nullCharacter position => s!"nul byte found in provided data at position: {position}"
  | authority name => s!"invalid uri authority: {name}"
  | unknownAccess value => s!"no such access mode: {value}"
  | deniedAccess value => s!"access mode not allowed: {value}"
  | unknownCache value => s!"no such cache mode: {value}"
  | unknownSystem name => s!"no such vfs: {name}"

structure Location where
  path : String
  access : Access := .create
  /-- Nobody writes to the file. -/
  immutable : Bool := false
  deriving DecidableEq

namespace Location

/-! ## Parts of a locator -/

/-- The bytes of a part of a locator. A null byte hides the rest of the part. -/
def unescape : List Char → List UInt8
  | [] => []
  | '%' :: a :: b :: rest =>
    match Text.readHex? [a, b] with
    | some 0 => []
    | some n => UInt8.ofNat n :: unescape rest
    | none => '%'.toUInt8 :: unescape (a :: b :: rest)
  | c :: rest => (String.ofList [c]).toUTF8.toList ++ unescape rest

/-- A part of a locator as text; bytes that are no text leave it as it is written. -/
def decode (part : List Char) : String :=
  (String.fromUTF8? ⟨(unescape part).toArray⟩).getD (String.ofList part)

/-- A text up to a character, and what is behind that character. -/
def splitAt (sep : Char) (text : List Char) : List Char × List Char :=
  (text.takeWhile (· ≠ sep), (text.dropWhile (· ≠ sep)).drop 1)

/-- The parameters that have a name. -/
def parameters (query : List Char) : List (String × String) :=
  ((Text.fields '&' query).map fun part =>
    let (name, value) := splitAt '=' part
    (decode name, decode value)).filter (·.1 != "")

/-- The path and the parameters behind the machine that a locator names. -/
def dropAuthority (text : List Char) : Except LocationFault (List Char) :=
  match text with
  | '/' :: '/' :: rest =>
    let authority := String.ofList (rest.takeWhile (· ≠ '/'))
    if authority = "" ∨ authority = "localhost" then .ok (rest.dropWhile (· ≠ '/'))
    else .error (.authority authority)
  | text => .ok text

/-! ## Parameters -/

def accessOf? : String → Option Access
  | "ro" => some .readOnly
  | "rw" => some .readWrite
  | "rwc" => some .create
  | "memory" => some .memory
  | _ => none

/-- The access that a parameter asks for, if it may. -/
def allow (current : Access) (value : String) : Except LocationFault Access :=
  match accessOf? value with
  | none => .error (.unknownAccess value)
  | some .memory => .ok .memory
  | some access => if access.bits ≤ current.bits then .ok access else .error (.deniedAccess value)

/-- Follows the parameters in order; the last one that names a file system counts. -/
def applyParameters (access : Access) (system : String) :
    List (String × String) → Except LocationFault (Access × String)
  | [] => .ok (access, system)
  | ("vfs", value) :: rest => applyParameters access value rest
  | ("cache", value) :: rest =>
    if value = "shared" ∨ value = "private" then applyParameters access system rest
    else .error (.unknownCache value)
  | ("mode", value) :: rest => do applyParameters (← allow access value) system rest
  | _ :: rest => applyParameters access system rest

/-- The usual file system comes first and the one without files last. -/
def systems : List String := ["unix", "unix-none", "unix-dotfile", "unix-excl", "memdb"]

/-- Whether a value means yes: a word for it, or a number whose lowest byte is not zero. -/
def isTrue (value : String) : Bool :=
  match value.toList.takeWhile Char.isDigit with
  | [] => ["on", "yes", "true"].contains (value.map Char.toLower)
  | digits => (Text.readNumeral? digits).any fun n => n ≤ 2147483647 && n % 256 != 0

/-! ## Names -/

/-- The place that a locator means, behind its first five characters. -/
def ofLocator (text : List Char) : Except LocationFault Location := do
  let text ← dropAuthority text
  let (path, query) := splitAt '?' (text.takeWhile (· ≠ '#'))
  let parameters := parameters query
  let (access, system) ← applyParameters .create "unix" parameters
  if systems.contains system then
    return {
      path := decode path
      access := if system = "memdb" then .memory else access
      immutable := (parameters.lookup "immutable").any isTrue }
  else throw (.unknownSystem system)

def parse (name : String) : Except LocationFault Location :=
  if name.toList.contains '\x00' then
    .error (.nullCharacter (String.ofList (name.toList.takeWhile (· ≠ '\x00'))).utf8ByteSize)
  else
    match name.toList with
    | 'f' :: 'i' :: 'l' :: 'e' :: ':' :: rest => ofLocator rest
    | _ => .ok { path := name }

/-- A tree without a file ends with the call. -/
def isVolatile (location : Location) : Bool :=
  location.path == "" || location.path == ":memory:" || location.access == .memory

def isReadOnly (location : Location) : Bool :=
  location.access == .readOnly || location.immutable

/-- Whether a file is made if there is none. -/
def creates (location : Location) : Bool := location.access == .create

end Location
end Inventory.CommandLine
