import Checkspan.Json

/-!
# Identity primitives (`src/contracts/ids.rs`)

Identifiers, positive numbers, digests and timestamps. Each is a structure that
carries the check its constructor makes, so a value outside its grammar cannot
be built.
-/

namespace Checkspan

/-- A primitive value that violates its identity rule (`ids.rs:9-16`). -/
structure InvalidValue where
  kind : String
  reason : String
deriving DecidableEq

def InvalidValue.display (e : InvalidValue) : String := "invalid " ++ e.kind ++ ": " ++ e.reason

/-- Longest identifier, in bytes (`ids.rs:7`). -/
def maxIdentifierLen : Nat := 128

def isAsciiLowercase (c : Char) : Bool := 'a' ≤ c && c ≤ 'z'

def isAsciiDigit (c : Char) : Bool := '0' ≤ c && c ≤ '9'

def isIdentifierChar (c : Char) : Bool :=
  isAsciiLowercase c || isAsciiDigit c || c == '_' || c == '.' || c == '-'

/-- `check_identifier` (`ids.rs:26-47`). -/
def checkIdentifier (kind value : String) : Except InvalidValue Unit :=
  match value.toList with
  | [] => .error ⟨kind, "must not be empty"⟩
  | first :: _ =>
    if value.utf8ByteSize > maxIdentifierLen then
      .error ⟨kind, "must be at most 128 bytes"⟩
    else if !(isAsciiLowercase first || isAsciiDigit first) then
      .error ⟨kind, "must start with a lowercase ASCII letter or digit"⟩
    else match value.toList.find? (fun c => !isIdentifierChar c) with
      | some bad => .error ⟨kind, "contains " ++ bad.quote ++
          "; only lowercase ASCII letters, digits, '_', '.', '-' are allowed"⟩
      | none => .ok ()

/-- The four identifier types of the `identifier!` macro (`ids.rs:83-102`). -/
inductive IdKind where
  | graphId
  | nodeId
  | runId
  | identifier
deriving DecidableEq

def IdKind.name : IdKind → String
  | graphId => "graph_id"
  | nodeId => "node_id"
  | runId => "run_id"
  | identifier => "identifier"

/-- One identifier type: text inside the identifier grammar (`ids.rs:49-81`). -/
structure Identifier (k : IdKind) where
  text : String
  valid : checkIdentifier k.name text = .ok ()
deriving DecidableEq

/-- Identifies a graph across all of its revisions. -/
abbrev GraphId := Identifier .graphId
/-- Graph-local node name. -/
abbrev NodeId := Identifier .nodeId
/-- Identifies one execution of one graph revision. -/
abbrev RunId := Identifier .runId
/-- General machine identifier. -/
abbrev Ident := Identifier .identifier

namespace Identifier

variable {k : IdKind}

instance : LawfulBEq (Identifier k) := inferInstance

/-- `new` / `try_from(String)`. -/
def new (k : IdKind) (text : String) : Except InvalidValue (Identifier k) :=
  match h : checkIdentifier k.name text with
  | .ok () => .ok ⟨text, h⟩
  | .error e => .error e

@[ext] theorem ext_text {a b : Identifier k} (h : a.text = b.text) : a = b := by
  cases a
  cases b
  cases h
  rfl

@[simp] theorem new_text (a : Identifier k) : new k a.text = .ok a := by
  unfold new
  split
  · rfl
  · rename_i h
    rw [a.valid] at h
    cases h

def toJson (a : Identifier k) : Json := .str a.text

end Identifier

/-- A `u32` that is at least one (`positive_u32!`, `ids.rs:104-147`). The three
instances are `Revision`, `Version` and `AttemptNumber`. -/
structure PositiveU32 where
  get : Nat
  pos : 0 < get
  bound : get < 2 ^ 32
deriving DecidableEq

/-- Monotonic contract revision, starting at 1. -/
abbrev Revision := PositiveU32
/-- Version of a schema, policy, or verifier, starting at 1. -/
abbrev Version := PositiveU32
/-- Attempt number of one node within one run, starting at 1. -/
abbrev AttemptNumber := PositiveU32

namespace PositiveU32

/-- `new` on a `u32`: zero is rejected (`ids.rs:114-125`). -/
def new (kind : String) (value : Nat) (bound : value < 2 ^ 32) : Except InvalidValue PositiveU32 :=
  if h : 0 < value then .ok ⟨value, h, bound⟩ else .error ⟨kind, "must be at least 1"⟩

/-- Where every counter starts. -/
def first : PositiveU32 := ⟨1, by decide, by decide⟩

@[ext] theorem ext_get {a b : PositiveU32} (h : a.get = b.get) : a = b := by
  cases a
  cases b
  cases h
  rfl

def toJson (a : PositiveU32) : Json := .num a.get

def display (a : PositiveU32) : String := toString a.get

end PositiveU32

/-- Lowercase hexadecimal digit, as a byte. -/
def isLowerHex (c : Char) : Bool := isAsciiDigit c || ('a' ≤ c && c ≤ 'f')

/-- The shape test of `Digest::new` (`ids.rs:174-190`). -/
def isDigestText (value : String) : Bool :=
  match value.toList with
  | 's' :: 'h' :: 'a' :: '2' :: '5' :: '6' :: ':' :: hex => hex.length == 64 && hex.all isLowerHex
  | _ => false

/-- Content digest: `sha256:` followed by 64 lowercase hex digits. -/
structure Digest where
  text : String
  valid : isDigestText text = true
deriving DecidableEq

namespace Digest

def new (value : String) : Except InvalidValue Digest :=
  if h : isDigestText value = true then .ok ⟨value, h⟩
  else .error ⟨"digest", value.quote ++ " is not 'sha256:' followed by 64 lowercase hex digits"⟩

@[ext] theorem ext_text {a b : Digest} (h : a.text = b.text) : a = b := by
  cases a
  cases b
  cases h
  rfl

@[simp] theorem new_text (a : Digest) : new a.text = .ok a := by
  unfold new
  rw [dif_pos a.valid]

def toJson (a : Digest) : Json := .str a.text

end Digest

/-! ### Timestamps (`ids.rs:231-376`) -/

/-- Value of an ASCII digit byte. -/
def digitValue (b : UInt8) : Nat := b.toNat - 48

def isDigitByte (b : UInt8) : Bool := 48 ≤ b && b ≤ 57

/-- `two_digits` (`ids.rs:331-339`). -/
def twoDigits (b : List UInt8) (pos min max : Nat) : Bool :=
  match b.drop pos with
  | x :: y :: _ =>
    isDigitByte x && isDigitByte y &&
      (let n := digitValue x * 10 + digitValue y; min ≤ n && n ≤ max)
  | _ => false

def byteAt (b : List UInt8) (i : Nat) : Option UInt8 := b[i]?

/-- The tail of an RFC 3339 text after the optional fraction: the offset. -/
def offsetShape (tail : List UInt8) : Bool :=
  match tail with
  | [z] => z == 90 || z == 122
  | sign :: _ =>
    (sign == 43 || sign == 45) && tail.length == 6 && twoDigits tail 1 0 23 &&
      byteAt tail 3 == some 58 && twoDigits tail 4 0 59
  | [] => false

/-- `rfc3339_shape` (`ids.rs:341-376`). -/
def rfc3339Shape (b : List UInt8) : Bool :=
  (b.length ≥ 20 && (b.take 4).all isDigitByte && byteAt b 4 == some 45 && twoDigits b 5 1 12 &&
    byteAt b 7 == some 45 && twoDigits b 8 1 31 &&
    (byteAt b 10 == some 84 || byteAt b 10 == some 116) && twoDigits b 11 0 23 &&
    byteAt b 13 == some 58 && twoDigits b 14 0 59 && byteAt b 16 == some 58 &&
    twoDigits b 17 0 60) &&
  (if byteAt b 19 == some 46 then
    let fraction := (b.drop 20).takeWhile isDigitByte
    !fraction.isEmpty && fraction.length ≤ 9 && offsetShape (b.drop (20 + fraction.length))
  else offsetShape (b.drop 19))

/-- RFC 3339 date-time with an explicit offset, kept as its original text. -/
structure Timestamp where
  text : String
  valid : rfc3339Shape text.toUTF8.toList = true
deriving DecidableEq

namespace Timestamp

def new (value : String) : Except InvalidValue Timestamp :=
  if h : rfc3339Shape value.toUTF8.toList = true then .ok ⟨value, h⟩
  else .error ⟨"timestamp", value.quote ++ " is not an RFC 3339 date-time with an explicit offset"⟩

/-- The decimal number spelled by bytes `i..i + n`. -/
def num (b : List UInt8) (i n : Nat) : Int :=
  ((b.drop i).take n).foldl (fun (acc : Int) d => acc * 10 + digitValue d) 0

/-- Days from civil date, as the source computes them (`ids.rs:300-307`). The
divisions of the source are on nonnegative numbers or truncate, as `Int.tdiv`. -/
def daysFromCivil (year month day : Int) : Int :=
  let y := if month ≤ 2 then year - 1 else year
  let era := (if y ≥ 0 then y else y - 399).tdiv 400
  let yoe := y - era * 400
  let mp := (month + 9).tmod 12
  let doy := (153 * mp + 2).tdiv 5 + day - 1
  let doe := yoe * 365 + yoe.tdiv 4 - yoe.tdiv 100 + doy
  era * 146097 + doe - 719468

/-- The fraction digits after byte 19, if a `.` stands there. -/
def fractionDigits (b : List UInt8) : List UInt8 :=
  if byteAt b 19 == some 46 then (b.drop 20).takeWhile isDigitByte else []

def nanos (b : List UInt8) : Int :=
  (fractionDigits b).foldl (fun (acc : Int) d => acc * 10 + digitValue d) 0 *
    10 ^ (9 - (fractionDigits b).length)

def offsetSeconds (b : List UInt8) : Int :=
  let i := if byteAt b 19 == some 46 then 20 + (fractionDigits b).length else 19
  match byteAt b i with
  | some 90 => 0
  | some 122 => 0
  | some sign =>
    let magnitude := num b (i + 1) 2 * 3600 + num b (i + 4) 2 * 60
    if sign == 45 then -magnitude else magnitude
  | none => 0

/-- `unix_nanos` (`ids.rs:264-310`): nanoseconds since the Unix epoch in UTC. -/
def unixNanos (t : Timestamp) : Int :=
  let b := t.text.toUTF8.toList
  let days := daysFromCivil (num b 0 4) (num b 5 2) (num b 8 2)
  let seconds := days * 86400 + num b 11 2 * 3600 + num b 14 2 * 60 + num b 17 2 - offsetSeconds b
  seconds * 1000000000 + nanos b

/-- `is_before` (`ids.rs:312-315`). -/
def isBefore (t other : Timestamp) : Bool := t.unixNanos < other.unixNanos

def toJson (t : Timestamp) : Json := .str t.text

end Timestamp

end Checkspan
