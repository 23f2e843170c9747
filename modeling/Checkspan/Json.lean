import Mathlib.Algebra.Group.Int.Defs
import Mathlib.Algebra.Group.Nat.Defs

/-!
# JSON values (`serde_json::Value`)

Event payloads, receipts and digests all pass through `serde_json`. A value is
kept as its tree: the store writes `payload.to_string()` and reads it back with
`serde_json::from_str` (`src/store/mod.rs`), which is the identity on trees.
Objects are association lists; lookups read the first entry of a key.
-/

namespace Checkspan

/-- A JSON document. Integers and other numbers are kept apart because the
envelope rules of `src/digests/mod.rs` treat them differently. -/
inductive Json where
  | null
  | bool (b : Bool)
  | num (n : Int)
  | float (literal : String)
  | str (s : String)
  | arr (items : List Json)
  | obj (fields : List (String × Json))

namespace Json

instance : Inhabited Json := ⟨null⟩

/-- `Value::get` with a string index: `none` on anything but an object. -/
def get (j : Json) (name : String) : Option Json :=
  match j with
  | obj fields => fields.lookup name
  | _ => none

/-- `value[name] = v` on an object: overwrites the key or adds it. Only objects
are ever indexed this way in the source. -/
def set (j : Json) (name : String) (v : Json) : Json :=
  match j with
  | obj fields => obj (fields.filter (fun f => f.1 != name) ++ [(name, v)])
  | other => other

/-- `.get(name).filter(|v| !v.is_null())`. -/
def getNonNull (j : Json) (name : String) : Option Json :=
  match j.get name with
  | some null => none
  | other => other

@[simp] theorem get_obj (name : String) (fields : List (String × Json)) :
    (obj fields).get name = fields.lookup name := rfl

@[simp] theorem set_obj (name : String) (v : Json) (fields : List (String × Json)) :
    (obj fields).set name v = obj (fields.filter (fun f => f.1 != name) ++ [(name, v)]) := rfl

/-- An optional field of a struct with `skip_serializing_if = "Option::is_none"`. -/
def optField (name : String) : Option Json → List (String × Json)
  | none => []
  | some v => [(name, v)]

/-- A list field with `skip_serializing_if = "Vec::is_empty"`. -/
def listField (name : String) : List Json → List (String × Json)
  | [] => []
  | items => [(name, arr items)]

/-- `Option<T>` written without a skip rule: `null` when absent. -/
def ofOption : Option Json → Json
  | none => null
  | some v => v

end Json

/-- `iter().map(ToString::to_string).collect::<Vec<_>>().join(sep)`. -/
def joinText (sep : String) (parts : List String) : String := sep.intercalate parts

end Checkspan
