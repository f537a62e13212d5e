import Mathlib.Data.List.Basic

namespace CardanoGraphql

/-- A value that `JSON.parse` yields. A number is held as the text `String` makes of it,
and the fields of an object, whose names are distinct, in their order. -/
inductive Json
  | null
  | bool (b : Bool)
  | num (text : String)
  | str (s : String)
  | arr (elements : List Json)
  | obj (fields : List (String × Json))
deriving Repr

namespace Json

theorem induction {P : Json → Prop} (null : P .null) (bool : ∀ b, P (.bool b))
    (num : ∀ text, P (.num text)) (str : ∀ s, P (.str s)) (arr : ∀ xs, (∀ x ∈ xs, P x) → P (.arr xs))
    (obj : ∀ fields, (∀ f ∈ fields, P f.2) → P (.obj fields)) (j : Json) : P j := by
  refine @Json.rec P (fun xs => ∀ x ∈ xs, P x) (fun fields => ∀ f ∈ fields, P f.2) (fun f => P f.2)
    null bool num str arr obj ?_ ?_ ?_ ?_ ?_ j
  · intro x hx
    cases hx
  · intro x xs hx hxs
    exact List.forall_mem_cons.mpr ⟨hx, hxs⟩
  · intro f hf
    cases hf
  · intro f fields hf hfields
    exact List.forall_mem_cons.mpr ⟨hf, hfields⟩
  · intro name value h
    exact h

def property (name : String) : Json → Option Json
  | .obj fields => (fields.find? fun f => decide (f.1 = name)).map Prod.snd
  | _ => none

def inheritedNames : List String :=
  ["__defineGetter__", "__defineSetter__", "__lookupGetter__", "__lookupSetter__", "__proto__",
    "constructor", "hasOwnProperty", "isPrototypeOf", "propertyIsEnumerable", "toLocaleString",
    "toString", "valueOf"]

mutual

/-- `String(value)`. An object prints through its inherited `toString`, unless a field
of that name hides it. -/
def toText : Json → Except String String
  | .null => .ok "null"
  | .bool b => .ok (if b then "true" else "false")
  | .num text => .ok text
  | .str s => .ok s
  | .arr elements => (elementTexts elements).map fun texts => ",".intercalate texts
  | .obj fields =>
      if fields.any fun f => decide (f.1 = "toString") then
        .error "Cannot convert object to primitive value"
      else .ok "[object Object]"

def elementTexts : List Json → Except String (List String)
  | [] => .ok []
  | .null :: rest => (elementTexts rest).map fun texts => "" :: texts
  | x :: rest => do
      let text ← toText x
      let texts ← elementTexts rest
      return text :: texts

end

mutual

def nullFree : Json → Bool
  | .null => false
  | .arr elements => elementsNullFree elements
  | .obj fields => fieldsNullFree fields
  | .bool _ | .num _ | .str _ => true

def elementsNullFree : List Json → Bool
  | [] => true
  | x :: rest => nullFree x && elementsNullFree rest

def fieldsNullFree : List (String × Json) → Bool
  | [] => true
  | (_, value) :: rest => nullFree value && fieldsNullFree rest

end

def propertyKey : Option Json → Except String String
  | none => .ok "undefined"
  | some value => toText value

end Json

end CardanoGraphql
