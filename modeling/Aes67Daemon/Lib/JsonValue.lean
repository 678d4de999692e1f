import Aes67Daemon.Lib.JsonArray
import Aes67Daemon.Lib.Ptree

/-!
# JSON values

A JSON value, and the property tree that is left of it when it is read: the tree does
not tell a string from a number or a literal of the same text, nor an array from an
object whose keys are empty.

A program that looks for a member of an object in the tree finds a value there, or
none.  A `Member` is such a look-up beside the type that the value is meant to have, and
says which values the two agree on.

## Main definitions

* `JsonNumber`, `JsonValue` — JSON values.
* `JsonValue.ptree` — what a value is read as.
* `JsonValue.at?`, `JsonValue.at?_ptree` — the value under a path of names is where the tree has it.
* `JsonValue.text`, `JsonValue.Plain.read_text` — a value without anything to escape is read from its text.
* `JsonMember`, `JsonMember.Shows`, `JsonMember.shows_iff` — members with a type.
* `JsonMember.bool`, `JsonMember.text`, `JsonMember.uint16` — the members of the basic types.
-/
namespace Aes67Daemon

open Text

/-- A number as it is written: its sign, its digits up to the point, and what follows them. -/
structure JsonNumber where
  negative : Bool := false
  whole : ℕ
  /-- The fraction and the exponent. -/
  tail : Text := []
  tail_ok : ∀ c ∈ tail.head?, c = '.' ∨ c = 'e' ∨ c = 'E'

/-- A natural number. -/
def JsonNumber.natural (n : ℕ) : JsonNumber where
  whole := n
  tail_ok _ hc := by cases hc

/-- A natural number with a minus sign. -/
def JsonNumber.negated (n : ℕ) : JsonNumber where
  negative := true
  whole := n
  tail_ok _ hc := by cases hc

/-- A JSON value. -/
inductive JsonValue
  | null
  | bool (b : Bool)
  | number (n : JsonNumber)
  | string (t : Text)
  | array (elements : List JsonValue)
  | object (members : List (Text × JsonValue))

/-- The text of a number. -/
def JsonNumber.literal (n : JsonNumber) : Text :=
  (if n.negative then ['-'] else []) ++ ofNat n.whole ++ n.tail

namespace JsonValue

mutual

/-- The property tree a value is read as. -/
def ptree : JsonValue → Ptree
  | .null => .leaf "null".toList
  | .bool b => .leaf (if b then "true".toList else "false".toList)
  | .number n => .leaf n.literal
  | .string t => .leaf t
  | .array es => .node [] (elementTrees es)
  | .object ms => .node [] (memberTrees ms)

/-- The trees of the elements of an array, under the empty key. -/
def elementTrees : List JsonValue → List (Text × Ptree)
  | [] => []
  | v :: vs => ([], ptree v) :: elementTrees vs

/-- The trees of the members of an object. -/
def memberTrees : List (Text × JsonValue) → List (Text × Ptree)
  | [] => []
  | (key, v) :: ms => (key, ptree v) :: memberTrees ms

end

/-- The member of an object with a name; the first, where a name is repeated. -/
def member? : JsonValue → Text → Option JsonValue
  | .object ms, key => (ms.find? fun m => m.1 == key).map Prod.snd
  | _, _ => none

/-- The value under a path of names. -/
def at? : JsonValue → List Text → Option JsonValue
  | v, [] => some v
  | v, key :: path => (v.member? key).bind fun c => c.at? path

/-- The elements of an array. -/
def elements? : JsonValue → Option (List JsonValue)
  | .array es => some es
  | _ => none

def isObject : JsonValue → Bool
  | .object _ => true
  | _ => false

def bool? : JsonValue → Option Bool
  | .bool b => some b
  | _ => none

def string? : JsonValue → Option Text
  | .string t => some t
  | _ => none

/-- An integer that is written as one. -/
def integer? : JsonValue → Option ℤ
  | .number n => if n.tail = [] then some (if n.negative then -(n.whole : ℤ) else n.whole) else none
  | _ => none

/-- An integer of sixteen bits. -/
def uint16? (v : JsonValue) : Option UInt16 :=
  (v.integer?.filter fun z => 0 ≤ z ∧ z ≤ 65535).map fun z => UInt16.ofNat z.toNat

theorem elementTrees_eq (es : List JsonValue) : elementTrees es = es.map fun v => ([], v.ptree) := by
  induction es with
  | nil => rfl
  | cons v es ih => rw [elementTrees, ih, List.map_cons]

theorem memberTrees_eq (ms : List (Text × JsonValue)) :
    memberTrees ms = ms.map fun m => (m.1, m.2.ptree) := by
  induction ms with
  | nil => rfl
  | cons m ms ih =>
      obtain ⟨key, v⟩ := m
      rw [memberTrees, ih, List.map_cons]

/-- The children of an array are its elements. -/
theorem children_elements {v : JsonValue} {es : List JsonValue} (h : v.elements? = some es) :
    v.ptree.children.map Prod.snd = es.map ptree := by
  cases v with
  | array es' =>
      obtain rfl := Option.some.inj h
      rw [ptree, Ptree.children_node, elementTrees_eq, List.map_map]
      rfl
  | null | bool | number | string | object => cases h

/-- A child with a name is the member of that name. -/
theorem child?_ptree (v : JsonValue) {key : Text} (hkey : key ≠ []) :
    v.ptree.child? key = (v.member? key).map ptree := by
  cases v with
  | object ms =>
      rw [ptree, Ptree.child?, Ptree.children_node, memberTrees_eq, member?, List.find?_map,
        Option.map_map, Option.map_map]
      rfl
  | array es =>
      have hnone : (es.map fun v => (([] : Text), v.ptree)).find? (fun c => c.1 == key) = none := by
        refine List.find?_eq_none.mpr fun c hc => ?_
        obtain ⟨v, -, rfl⟩ := List.mem_map.mp hc
        simpa using hkey.symm
      rw [ptree, Ptree.child?, Ptree.children_node, elementTrees_eq, hnone]
      rfl
  | null | bool | number | string => rfl

/-- **The tree has a value where its path of names leads.** -/
theorem at?_ptree (v : JsonValue) {path : List Text} (hpath : ∀ key ∈ path, key ≠ []) :
    v.ptree.at? path = (v.at? path).map ptree := by
  induction path generalizing v with
  | nil => rfl
  | cons key path ih =>
      rw [Ptree.at?, at?, child?_ptree v (hpath key List.mem_cons_self)]
      cases v.member? key with
      | none => rfl
      | some c => exact ih c fun k hk => hpath k (List.mem_cons_of_mem _ hk)

/-! ## Texts -/

mutual

/-- The text of a value on one line, with its strings as they are. -/
def text : JsonValue → Text
  | .null => "null".toList
  | .bool b => if b then "true".toList else "false".toList
  | .number n => n.literal
  | .string t => '"' :: t ++ ['"']
  | .array es => '[' :: ", ".toList.intercalate (elementTexts es) ++ [']']
  | .object ms => '{' :: ", ".toList.intercalate (memberTexts ms) ++ ['}']

/-- The texts of the elements of an array. -/
def elementTexts : List JsonValue → List Text
  | [] => []
  | v :: vs => text v :: elementTexts vs

/-- The texts of the members of an object. -/
def memberTexts : List (Text × JsonValue) → List Text
  | [] => []
  | (key, v) :: ms => Json.memberText (key, text v) :: memberTexts ms

end

theorem elementTexts_eq (es : List JsonValue) : elementTexts es = es.map text := by
  induction es with
  | nil => rfl
  | cons v es ih => rw [elementTexts, ih, List.map_cons]

theorem memberTexts_eq (ms : List (Text × JsonValue)) :
    memberTexts ms = ms.map fun m => Json.memberText (m.1, m.2.text) := by
  induction ms with
  | nil => rfl
  | cons m ms ih =>
      obtain ⟨key, v⟩ := m
      rw [memberTexts, ih, List.map_cons]

/-- A value whose strings and names need no escape, and whose numbers are natural. -/
inductive Plain : JsonValue → Prop
  | null : Plain .null
  | bool (b : Bool) : Plain (.bool b)
  | number (n : ℕ) : Plain (.number (.natural n))
  | negated (n : ℕ) : Plain (.number (.negated n))
  | string {t : Text} (hplain : ∀ c ∈ t, Json.plain c = true) (hutf8 : Json.isUtf8 t = true) :
      Plain (.string t)
  | array {es : List JsonValue} (h : ∀ v ∈ es, Plain v) : Plain (.array es)
  | object {ms : List (Text × JsonValue)}
      (hkeys : ∀ m ∈ ms, (∀ c ∈ m.1, Json.plain c = true) ∧ Json.isUtf8 m.1 = true)
      (h : ∀ m ∈ ms, Plain m.2) : Plain (.object ms)

namespace Plain
variable {v : JsonValue}

theorem reads_text (H : v.Plain) : Json.Reads v.text v.ptree := by
  induction H with
  | null => exact Json.reads_null
  | bool b => simpa only [JsonValue.text, JsonValue.ptree] using Json.reads_bool b
  | number n => simpa [JsonValue.text, JsonValue.ptree, JsonNumber.literal, JsonNumber.natural] using Json.reads_nat n
  | negated n => simpa [JsonValue.text, JsonValue.ptree, JsonNumber.literal, JsonNumber.negated] using Json.reads_negated n
  | string hplain hutf8 => exact Json.reads_string (Json.encodes_plain hplain)
  | @array es h ih =>
      have hnone : ∀ c ∈ ([] : Text), Json.isWs c = true := by simp
      have hone : ∀ c ∈ [' '], Json.isWs c = true := by simp [Json.isWs]
      have hparts : ∀ p ∈ es.map fun v => (v.text, v.ptree), Json.Reads p.1 p.2 := by
        intro p hp
        obtain ⟨v, hv, rfl⟩ := List.mem_map.mp hp
        exact ih v hv
      have hread := Json.reads_array hnone hone hnone hparts
      simpa [JsonValue.text, JsonValue.ptree, elementTexts_eq, elementTrees_eq, Function.comp_def] using hread
  | @object ms hkeys h ih =>
      have hread := Json.reads_objectText (ms.map fun m => (m.1, m.2.text, m.2.ptree)) fun m hm => by
        obtain ⟨m', hm', rfl⟩ := List.mem_map.mp hm
        exact ⟨(hkeys m' hm').1, ih m' hm'⟩
      simpa [JsonValue.text, JsonValue.ptree, Json.objectText, memberTexts_eq, memberTrees_eq,
        Function.comp_def] using hread

theorem isUtf8_text (H : v.Plain) : Json.isUtf8 v.text = true := by
  induction H with
  | null => rfl
  | bool b => cases b <;> rfl
  | number n => simpa [JsonValue.text, JsonNumber.literal, JsonNumber.natural] using Json.isUtf8_of_ascii (Json.ascii_ofNat n)
  | negated n =>
      have hutf8 := Json.isUtf8_append (t := ['-']) rfl (Json.isUtf8_of_ascii (Json.ascii_ofNat n))
      simpa [JsonValue.text, JsonNumber.literal, JsonNumber.negated] using hutf8
  | string hplain hutf8 => exact Json.isUtf8_append (Json.isUtf8_append (t := ['"']) rfl hutf8) rfl
  | @array es h ih =>
      rw [JsonValue.text, elementTexts_eq]
      refine Json.isUtf8_append (Json.isUtf8_append (t := ['[']) rfl (Json.isUtf8_intercalate rfl ?_)) rfl
      intro t ht
      obtain ⟨v, hv, rfl⟩ := List.mem_map.mp ht
      exact ih v hv
  | @object ms hkeys h ih =>
      rw [JsonValue.text, memberTexts_eq]
      refine Json.isUtf8_append (Json.isUtf8_append (t := ['{']) rfl (Json.isUtf8_intercalate rfl ?_)) rfl
      intro t ht
      obtain ⟨m, hm, rfl⟩ := List.mem_map.mp ht
      exact Json.isUtf8_memberText (hkeys m hm).2 (ih m hm)

/-- **A plain value is read from its text.** -/
theorem read_text (H : v.Plain) : Json.read v.text = some v.ptree := by
  have hread := Json.read_eq H.reads_text H.isUtf8_text (w := []) (by simp)
  rwa [List.append_nil] at hread

end Plain

end JsonValue

/-! ## Members with a type -/

/-- How a program takes a value of some type from the tree, and the values it is meant to take:
where the value fits, and only there, it is of the type and what is taken. -/
structure JsonMember (α : Type) where
  /-- The value of the type that a JSON value is. -/
  value? : JsonValue → Option α
  /-- What the program finds. -/
  read : Ptree → Option α
  fits : JsonValue → Bool
  law : ∀ v old, value? v = some ((read v.ptree).getD old) ↔ fits v = true

namespace JsonMember
variable {α : Type}

/-- What becomes of a setting: it is the value of the member, and stays without one. -/
def Shows (m : JsonMember α) (o : Option JsonValue) (old new : α) : Prop :=
  match o with
  | none => new = old
  | some v => m.value? v = some new

/-- The member fits if there is one. -/
def Fits (m : JsonMember α) (o : Option JsonValue) : Prop := ∀ v ∈ o, m.fits v = true

instance (m : JsonMember α) (o : Option JsonValue) : Decidable (m.Fits o) :=
  inferInstanceAs (Decidable (∀ v ∈ o, m.fits v = true))

/-- **A setting becomes the value of its member if that fits**, and only then. -/
theorem shows_iff (m : JsonMember α) (o : Option JsonValue) (old : α) :
    m.Shows o old (((o.map JsonValue.ptree).bind m.read).getD old) ↔ m.Fits o := by
  cases o with
  | none => simp [Shows, Fits]
  | some v => simpa [Shows, Fits] using m.law v old

theorem shows_at_iff (m : JsonMember α) (v : JsonValue) {path : List Text}
    (hpath : ∀ key ∈ path, key ≠ []) (old : α) :
    m.Shows (v.at? path) old (((v.ptree.at? path).bind m.read).getD old) ↔ m.Fits (v.at? path) := by
  rw [v.at?_ptree hpath]
  exact m.shows_iff _ old

/-- A member that is taken as it is where it has the type. -/
def ofReads (value? : JsonValue → Option α) (read : Ptree → Option α)
    (h : ∀ v x, value? v = some x → read v.ptree = some x) : JsonMember α where
  value? := value?
  read := read
  fits v := (value? v).isSome
  law v old := by
    cases hv : value? v with
    | none => simp
    | some x => simp [h v x hv]

/-- A boolean. -/
def bool : JsonMember Bool :=
  ofReads JsonValue.bool? Ptree.getBool? fun v b hv => by
    cases v with
    | bool b' =>
        obtain rfl := Option.some.inj hv
        cases b' <;> decide
    | null | number | string | array | object => cases hv

/-- A string. -/
def text : JsonMember Text :=
  ofReads JsonValue.string? (fun t => some t.data) fun v t hv => by
    cases v with
    | string t' => exact hv
    | null | bool | number | array | object => cases hv

/-- An integer of sixteen bits. -/
def uint16 : JsonMember UInt16 :=
  ofReads JsonValue.uint16? Ptree.getUInt16? fun v x hv => by
    cases v with
    | number n =>
        obtain ⟨z, hz, rfl⟩ := Option.map_eq_some_iff.mp hv
        obtain ⟨hint, hrange⟩ := Option.filter_eq_some_iff.mp hz
        rw [decide_eq_true_eq] at hrange
        obtain ⟨htail, hint⟩ := Option.ite_none_right_eq_some.mp hint
        obtain rfl := Option.some.inj hint
        rw [JsonValue.ptree, Ptree.getUInt16?, Ptree.data_leaf, JsonNumber.literal, htail, List.append_nil]
        cases hneg : n.negative with
        | false =>
            simp only [hneg, Bool.false_eq_true, if_false] at hrange
            have hwhole : n.whole ≤ 65535 := by omega
            simp [extractUnsigned_ofNat hwhole]
        | true =>
            -- the only negative number in range is minus zero
            simp only [hneg, if_true] at hrange
            have hwhole : n.whole = 0 := by omega
            rw [hwhole]
            decide
    | null | bool | string | array | object => cases hv

end JsonMember
end Aes67Daemon
