import Aes67Daemon.Lib.Text
import Mathlib.Data.List.DropRight

/-!
# JSON texts and property trees

A property tree has a text at every node and children under keys, in order; a key
may occur more than once.  `Json.read` reads a JSON text (RFC 8259) into a property
tree: strings, numbers and the three literals become leaves with their text, so
that `null` is the text `null`, the members of an object become children under
their names, and the elements of an array become children under the empty key.

A text is read with fuel, of which its length is enough.

## Main definitions

* `Ptree` — property trees, with the look-ups of their clients.
* `Json.read` — the reader.
* `Json.Reads` — a text is read as a tree wherever it stands.
* `Json.Members`, `Json.reads_object`, `Json.reads_members` — an object is read member by member.
-/
namespace Aes67Daemon

open Text

/-- A property tree. -/
inductive Ptree
  | node (data : Text) (children : List (Text × Ptree))

namespace Ptree

/-- A tree without children. -/
def leaf (data : Text) : Ptree := .node data []

/-- The text at the root. -/
def data : Ptree → Text
  | .node data _ => data

/-- The children of the root. -/
def children : Ptree → List (Text × Ptree)
  | .node _ children => children

/-- The first child under a key. -/
def child? (t : Ptree) (key : Text) : Option Ptree :=
  (t.children.find? fun c => c.1 == key).map Prod.snd

@[simp] theorem data_leaf (t : Text) : (leaf t).data = t := rfl
@[simp] theorem children_node (d : Text) (cs : List (Text × Ptree)) : (node d cs).children = cs := rfl

end Ptree

namespace Json

/-! ## The reader -/

/-- The white space between tokens. -/
def isWs (c : Char) : Bool := c = ' ' || c = '\t' || c = '\n' || c = '\r'

/-- Drop leading white space. -/
def skipWs (t : Text) : Text := t.dropWhile isWs

/-- The bytes of a code point in UTF-8. -/
def utf8 (n : ℕ) : Text :=
  if n < 0x80 then [Char.ofNat n]
  else if n < 0x800 then [Char.ofNat (0xc0 + n / 0x40), Char.ofNat (0x80 + n % 0x40)]
  else if n < 0x10000 then
    [Char.ofNat (0xe0 + n / 0x1000), Char.ofNat (0x80 + n / 0x40 % 0x40), Char.ofNat (0x80 + n % 0x40)]
  else
    [Char.ofNat (0xf0 + n / 0x40000), Char.ofNat (0x80 + n / 0x1000 % 0x40),
      Char.ofNat (0x80 + n / 0x40 % 0x40), Char.ofNat (0x80 + n % 0x40)]

/-- How many bytes follow the first byte of a code point; `none` for a byte that
cannot be the first. -/
def trailing (c : Char) : Option ℕ :=
  let n := c.toNat
  if n < 0x80 then some 0
  else if n < 0xc0 then none
  else if n < 0xe0 then some 1
  else if n < 0xf0 then some 2
  else if n < 0xf8 then some 3
  else none

/-- Whether a text is in UTF-8, when `pending` bytes of a code point are still to come. -/
def isUtf8From : ℕ → Text → Bool
  | pending, [] => pending = 0
  | 0, c :: t =>
    match trailing c with
    | some n => isUtf8From n t
    | none => false
  | pending + 1, c :: t => 0x80 ≤ c.toNat && c.toNat < 0xc0 && isUtf8From pending t

/-- Whether a text is in UTF-8. -/
def isUtf8 (t : Text) : Bool := isUtf8From 0 t

/-- Four hexadecimal digits, and the text after them. -/
def hex4 : Text → Option (ℕ × Text)
  | a :: b :: c :: d :: t => do
    let a ← hexDigit a
    let b ← hexDigit b
    let c ← hexDigit c
    let d ← hexDigit d
    pure (((a * 16 + b) * 16 + c) * 16 + d, t)
  | _ => none

/-- What follows the backslash of an escape sequence: the bytes it stands for, and
the text after it. -/
def escaped : Text → Option (Text × Text)
  | '"' :: t => some (['"'], t)
  | '\\' :: t => some (['\\'], t)
  | '/' :: t => some (['/'], t)
  | 'b' :: t => some (['\x08'], t)
  | 'f' :: t => some (['\x0c'], t)
  | 'n' :: t => some (['\n'], t)
  | 'r' :: t => some (['\r'], t)
  | 't' :: t => some (['\t'], t)
  | 'u' :: t => do
    let (n, t) ← hex4 t
    if 0xd800 ≤ n ∧ n < 0xdc00 then
      match t with
      | '\\' :: 'u' :: t => do
        let (m, t) ← hex4 t
        if 0xdc00 ≤ m ∧ m < 0xe000 then
          pure (utf8 (0x10000 + (n - 0xd800) * 0x400 + (m - 0xdc00)), t)
        else none
      | _ => none
    else if 0xdc00 ≤ n ∧ n < 0xe000 then none
    else pure (utf8 n, t)
  | _ => none

/-- The rest of a string after its opening quote: its text, and what follows it. -/
def string : ℕ → Text → Option (Text × Text)
  | 0, _ => none
  | _ + 1, [] => none
  | n + 1, c :: t =>
    if c = '"' then some ([], t)
    else if c = '\\' then
      (escaped t).bind fun e => (string n e.2).map fun r => (e.1 ++ r.1, r.2)
    else if c.toNat < 0x20 then none
    else (string n t).map fun r => (c :: r.1, r.2)

/-- One or more digits, and the text after them. -/
def digits (t : Text) : Option (Text × Text) :=
  let ds := t.takeWhile Char.isDigit
  if ds = [] then none else some (ds, t.dropWhile Char.isDigit)

/-- The fraction and the exponent of a number, and the text after them. -/
def fraction : Text → Option (Text × Text)
  | '.' :: t => (digits t).map fun r => ('.' :: r.1, r.2)
  | t => some ([], t)

/-- The exponent of a number, and the text after it. -/
def exponent : Text → Option (Text × Text)
  | c :: t =>
    if c = 'e' ∨ c = 'E' then
      match t with
      | '+' :: t => (digits t).map fun r => (c :: '+' :: r.1, r.2)
      | '-' :: t => (digits t).map fun r => (c :: '-' :: r.1, r.2)
      | t => (digits t).map fun r => (c :: r.1, r.2)
    else some ([], c :: t)
  | [] => some ([], [])

/-- A number without its sign: the text of it, and the text after it. -/
def magnitude (t : Text) : Option (Text × Text) := do
  let (ds, t) ← digits t
  if ds.head? = some '0' ∧ ds.length ≠ 1 then none
  else
    let (fs, t) ← fraction t
    let (es, t) ← exponent t
    pure (ds ++ fs ++ es, t)

/-- A literal or a number, and the text after it. -/
def scalar : Text → Option (Text × Text)
  | 'n' :: 'u' :: 'l' :: 'l' :: t => some ("null".toList, t)
  | 't' :: 'r' :: 'u' :: 'e' :: t => some ("true".toList, t)
  | 'f' :: 'a' :: 'l' :: 's' :: 'e' :: t => some ("false".toList, t)
  | '-' :: t => (magnitude t).map fun r => ('-' :: r.1, r.2)
  | t => magnitude t

mutual

/-- A value, and the text after it. -/
def value : ℕ → Text → Option (Ptree × Text)
  | 0, _ => none
  | n + 1, t =>
    match skipWs t with
    | '{' :: t =>
      match skipWs t with
      | '}' :: t => some (.leaf [], t)
      | t => (members n t).map fun r => (.node [] r.1, r.2)
    | '[' :: t =>
      match skipWs t with
      | ']' :: t => some (.leaf [], t)
      | t => (elements n t).map fun r => (.node [] r.1, r.2)
    | '"' :: t => (string n t).map fun r => (.leaf r.1, r.2)
    | t => (scalar t).map fun r => (.leaf r.1, r.2)

/-- The members of an object up to its closing brace, and the text after it. -/
def members : ℕ → Text → Option (List (Text × Ptree) × Text)
  | 0, _ => none
  | n + 1, t =>
    match skipWs t with
    | '"' :: t => do
      let (key, t) ← string n t
      match skipWs t with
      | ':' :: t => do
        let (v, t) ← value n t
        match skipWs t with
        | ',' :: t => (members n t).map fun r => ((key, v) :: r.1, r.2)
        | '}' :: t => pure ([(key, v)], t)
        | _ => none
      | _ => none
    | _ => none

/-- The elements of an array up to its closing bracket, and the text after it. -/
def elements : ℕ → Text → Option (List (Text × Ptree) × Text)
  | 0, _ => none
  | n + 1, t => do
    let (v, t) ← value n t
    match skipWs t with
    | ',' :: t => (elements n t).map fun r => (([], v) :: r.1, r.2)
    | ']' :: t => pure ([([], v)], t)
    | _ => none

end

/-- Read a JSON text. -/
def read (t : Text) : Option Ptree :=
  if isUtf8 t then
    (value (t.length + 1) t).bind fun r => if skipWs r.2 = [] then some r.1 else none
  else none

/-! ## The writer -/

/-- A hexadecimal digit. -/
def hexChar (n : ℕ) : Char := if n < 10 then Char.ofNat (0x30 + n) else Char.ofNat (0x41 + n - 10)

/-- A character of a string, escaped where it has to be. -/
def escape (c : Char) : Text :=
  if c = '"' then ['\\', '"']
  else if c = '\\' then ['\\', '\\']
  else if c = '/' then ['\\', '/']
  else if c = '\x08' then ['\\', 'b']
  else if c = '\x0c' then ['\\', 'f']
  else if c = '\n' then ['\\', 'n']
  else if c = '\r' then ['\\', 'r']
  else if c = '\t' then ['\\', 't']
  else if c.toNat < 0x20 then ['\\', 'u', '0', '0', hexChar (c.toNat / 16), hexChar (c.toNat % 16)]
  else [c]

/-- A text as a string in quotes. -/
def writeString (t : Text) : Text := '"' :: t.flatMap escape ++ ['"']

mutual

/-- Write a property tree on one line: a leaf as a string, children with empty keys only
as an array, and other children as an object. -/
def write : Ptree → Text
  | .node data [] => writeString data
  | .node _ (c :: cs) =>
    if (c :: cs).all fun c => c.1 = [] then '[' :: writeElements (c :: cs) ++ [']']
    else '{' :: writeMembers (c :: cs) ++ ['}']

/-- The members of an object. -/
def writeMembers : List (Text × Ptree) → Text
  | [] => []
  | [(key, t)] => writeString key ++ ':' :: write t
  | (key, t) :: c :: cs => writeString key ++ ':' :: write t ++ ',' :: writeMembers (c :: cs)

/-- The elements of an array. -/
def writeElements : List (Text × Ptree) → Text
  | [] => []
  | [(_, t)] => write t
  | (_, t) :: c :: cs => write t ++ ',' :: writeElements (c :: cs)

end

/-! ## Texts in UTF-8 -/

theorem isUtf8From_append {k : ℕ} {t : Text} (h : isUtf8From k t = true) (u : Text) :
    isUtf8From k (t ++ u) = isUtf8 u := by
  induction t generalizing k with
  | nil =>
      cases k with
      | zero => rfl
      | succ k => simp [isUtf8From] at h
  | cons c t ih =>
      cases k with
      | zero =>
          rw [isUtf8From] at h
          rw [List.cons_append, isUtf8From]
          split at h
          · exact ih h
          · cases h
      | succ k =>
          rw [isUtf8From, Bool.and_eq_true] at h
          rw [List.cons_append, isUtf8From, h.1, Bool.true_and]
          exact ih h.2

theorem isUtf8_append {t u : Text} (ht : isUtf8 t = true) (hu : isUtf8 u = true) :
    isUtf8 (t ++ u) = true := by
  rw [isUtf8, isUtf8From_append ht, hu]

theorem isUtf8_of_ascii {t : Text} (h : ∀ c ∈ t, c.toNat < 0x80) : isUtf8 t = true := by
  induction t with
  | nil => rfl
  | cons c t ih =>
      have hc : trailing c = some 0 := if_pos (h c List.mem_cons_self)
      rw [isUtf8, isUtf8From, hc]
      exact ih fun d hd => h d (List.mem_cons_of_mem _ hd)

/-- A number is written in ASCII. -/
theorem ascii_ofNat (n : ℕ) : ∀ c ∈ ofNat n, c.toNat < 0x80 := by
  intro c hc
  have hdigit := digits_isDigit hc
  rw [Char.isDigit_iff_toNat] at hdigit
  have hnine : '9'.toNat < 0x80 := by decide
  omega

theorem isUtf8_intercalate {sep : Text} (hsep : isUtf8 sep = true) {ts : List Text}
    (h : ∀ t ∈ ts, isUtf8 t = true) : isUtf8 (sep.intercalate ts) = true := by
  induction ts with
  | nil => rfl
  | cons t ts ih =>
      have hrest := ih fun u hu => h u (List.mem_cons_of_mem _ hu)
      cases ts with
      | nil => simpa using h t List.mem_cons_self
      | cons u ts =>
          rw [List.intercalate_cons_cons]
          exact isUtf8_append (isUtf8_append (h t List.mem_cons_self) hsep) hrest

/-! ## What a string is read as -/

/-- Between quotes, `e` is read as `data`. -/
def Encodes (e data : Text) : Prop :=
  ∀ n rest, e.length < n → string n (e ++ '"' :: rest) = some (data, rest)

/-- A character that stands for itself in a string. -/
def plain (c : Char) : Bool := 0x20 ≤ c.toNat && c != '"' && c != '\\'

theorem encodes_nil : Encodes [] [] := by
  intro n rest hn
  obtain ⟨n, rfl⟩ := Nat.exists_eq_succ_of_ne_zero (Nat.ne_of_gt hn)
  rfl

theorem Encodes.cons {e data : Text} (H : Encodes e data) {c : Char} (hc : plain c = true) :
    Encodes (c :: e) (c :: data) := by
  intro n rest hn
  rw [List.length_cons] at hn
  obtain ⟨n, rfl⟩ := Nat.exists_eq_succ_of_ne_zero (Nat.ne_of_gt (Nat.zero_lt_of_lt hn))
  simp only [plain, Bool.and_eq_true, decide_eq_true_eq, bne_iff_ne] at hc
  obtain ⟨⟨hlow, hquote⟩, hslash⟩ := hc
  have hrest := H n rest (by omega)
  rw [List.cons_append, string, if_neg hquote, if_neg hslash, if_neg (by omega), hrest]
  rfl

theorem Encodes.escape {e data : Text} (H : Encodes e data) {c d : Char}
    (hc : ∀ t, escaped (c :: t) = some ([d], t)) : Encodes ('\\' :: c :: e) (d :: data) := by
  intro n rest hn
  rw [List.length_cons, List.length_cons] at hn
  obtain ⟨n, rfl⟩ := Nat.exists_eq_succ_of_ne_zero (Nat.ne_of_gt (Nat.zero_lt_of_lt hn))
  have hrest := H n rest (by omega)
  rw [List.cons_append, List.cons_append, string, if_neg (by decide), if_pos rfl, hc,
    Option.bind_some, hrest]
  rfl

/-- A text of plain characters stands for itself. -/
theorem encodes_plain {t : Text} (h : ∀ c ∈ t, plain c = true) : Encodes t t := by
  induction t with
  | nil => exact encodes_nil
  | cons c t ih =>
      exact (ih fun d hd => h d (List.mem_cons_of_mem _ hd)).cons (h c List.mem_cons_self)

/-! ## What a value is read as -/

/-- What may follow a value: nothing that could belong to a number. -/
def Follows (rest : Text) : Prop :=
  ∀ c ∈ rest.head?, c.isDigit = false ∧ c ≠ '.' ∧ c ≠ 'e' ∧ c ≠ 'E'

/-- The text `t` is read as `tree`, whatever may follow it. -/
def Reads (t : Text) (tree : Ptree) : Prop :=
  ∀ n rest, t.length ≤ n → Follows rest → value (n + 1) (t ++ rest) = some (tree, rest)

theorem skipWs_append {w : Text} (hw : ∀ c ∈ w, isWs c = true) (t : Text) :
    skipWs (w ++ t) = skipWs t :=
  List.dropWhile_append_of_pos hw

theorem skipWs_cons {c : Char} (hc : isWs c = false) (t : Text) : skipWs (c :: t) = c :: t :=
  List.dropWhile_cons_of_neg (by simp [hc])

theorem value_skip {w : Text} (hw : ∀ c ∈ w, isWs c = true) (n : ℕ) (t : Text) :
    value n (w ++ t) = value n t := by
  cases n with
  | zero => rfl
  | succ n => rw [value, value, skipWs_append hw]

theorem reads_string {e data : Text} (H : Encodes e data) : Reads ('"' :: e ++ ['"']) (.leaf data) := by
  intro n rest hn _
  have hlen : e.length < n := by simp at hn; omega
  have hread := H n rest hlen
  rw [value, List.cons_append, List.cons_append, skipWs_cons (by decide)]
  simp [hread]

theorem reads_null : Reads "null".toList (.leaf "null".toList) := by
  intro n rest _ _
  rfl

theorem reads_bool (b : Bool) :
    Reads (if b then "true".toList else "false".toList) (.leaf (if b then "true".toList else "false".toList)) := by
  intro n rest _ _
  cases b <;> rfl

/-! ## Numbers -/

theorem digits_ofNat_append (n : ℕ) {rest : Text} (h : NoDigitFirst rest) :
    digits (ofNat n ++ rest) = some (ofNat n, rest) := by
  rw [digits, takeWhile_ofNat_append n h, dropWhile_ofNat_append n h, if_neg (ofNat_ne_nil n)]

theorem magnitude_ofNat_append (n : ℕ) {rest : Text} (h : Follows rest) :
    magnitude (ofNat n ++ rest) = some (ofNat n, rest) := by
  have hrest : NoDigitFirst rest := fun c hc => (h c hc).1
  have hdigits := digits_ofNat_append n hrest
  have hhead : ¬ ((ofNat n).head? = some '0' ∧ (ofNat n).length ≠ 1) := fun hz => hz.2 (head?_ofNat hz.1)
  have hfraction : fraction rest = some ([], rest) := by
    cases rest with
    | nil => rfl
    | cons c t =>
        unfold fraction
        split
        · rename_i heq
          cases heq
          exact absurd rfl (h '.' rfl).2.1
        · rfl
  have hexponent : exponent rest = some ([], rest) := by
    cases rest with
    | nil => rfl
    | cons c t =>
        obtain ⟨-, -, hlower, hupper⟩ := h c rfl
        simp [exponent, hlower, hupper]
  rw [magnitude, hdigits]
  simp [hhead, hfraction, hexponent]

/-- A value that is neither an object, nor an array, nor a string. -/
theorem value_scalar {c : Char} {t : Text} (hws : isWs c = false) (hc : c ≠ '{' ∧ c ≠ '[' ∧ c ≠ '"')
    (n : ℕ) : value (n + 1) (c :: t) = (scalar (c :: t)).map fun r => (.leaf r.1, r.2) := by
  rw [value, skipWs_cons hws]
  split
  · rename_i heq
    cases heq
    exact absurd rfl hc.1
  · rename_i heq
    cases heq
    exact absurd rfl hc.2.1
  · rename_i heq
    cases heq
    exact absurd rfl hc.2.2
  · rfl

theorem digit_starts {c : Char} (h : c.isDigit = true) :
    isWs c = false ∧ (c ≠ '{' ∧ c ≠ '[' ∧ c ≠ '"') ∧ c ≠ 'n' ∧ c ≠ 't' ∧ c ≠ 'f' ∧ c ≠ '-' := by
  have hws : isWs c = false := by
    simp only [isWs, Bool.or_eq_false_iff, decide_eq_false_iff_not]
    refine ⟨⟨⟨?_, ?_⟩, ?_⟩, ?_⟩ <;> (rintro rfl; revert h; decide)
  refine ⟨hws, ⟨?_, ?_, ?_⟩, ?_, ?_, ?_, ?_⟩ <;> (rintro rfl; revert h; decide)

theorem scalar_digit {c : Char} (h : c.isDigit = true) (t : Text) :
    scalar (c :: t) = magnitude (c :: t) := by
  obtain ⟨-, -, hn, ht, hf, hminus⟩ := digit_starts h
  unfold scalar
  split
  all_goals first
    | rfl
    | (rename_i heq; cases heq; contradiction)

/-- **A natural number is read as its digits.** -/
theorem reads_nat (k : ℕ) : Reads (ofNat k) (.leaf (ofNat k)) := by
  intro n rest _ hrest
  have hmag := magnitude_ofNat_append k hrest
  obtain ⟨c, s, hs, hc⟩ := ofNat_eq_cons k
  obtain ⟨hws, hopen, -⟩ := digit_starts hc
  rw [hs, List.cons_append] at hmag ⊢
  rw [value_scalar hws hopen, scalar_digit hc, hmag]
  rfl

/-- An integer in decimal, as a stream prints it. -/
def printInt (z : ℤ) : Text := if z < 0 then '-' :: ofNat z.natAbs else ofNat z.natAbs

theorem reads_negated (k : ℕ) : Reads ('-' :: ofNat k) (.leaf ('-' :: ofNat k)) := by
  intro n rest _ hrest
  rw [List.cons_append, value_scalar (by decide) (by decide), scalar, magnitude_ofNat_append _ hrest]
  rfl

/-- **An integer is read as its digits**, with a minus sign if it is negative. -/
theorem reads_int (z : ℤ) : Reads (printInt z) (.leaf (printInt z)) := by
  unfold printInt
  split
  · exact reads_negated z.natAbs
  · exact reads_nat z.natAbs

/-! ## Objects -/

/-- `k` is a string in quotes that is read as `key`. -/
def Quoted (k key : Text) : Prop := ∃ e, k = '"' :: e ++ ['"'] ∧ Encodes e key

/-- The text of the members of an object, from after its opening brace to its
closing brace, and what they are read as. -/
inductive Members : Text → List (Text × Ptree) → Prop
  | last {w k w' v w'' key : Text} {tree : Ptree} (hw : ∀ c ∈ w, isWs c = true) (hk : Quoted k key)
      (hw' : ∀ c ∈ w', isWs c = true) (hv : Reads v tree) (hw'' : ∀ c ∈ w'', isWs c = true) :
    Members (w ++ k ++ ':' :: w' ++ v ++ w'' ++ ['}']) [(key, tree)]
  | cons {w k w' v t key : Text} {tree : Ptree} {ms : List (Text × Ptree)}
      (hw : ∀ c ∈ w, isWs c = true) (hk : Quoted k key) (hw' : ∀ c ∈ w', isWs c = true)
      (hv : Reads v tree) (h : Members t ms) :
    Members (w ++ k ++ ':' :: w' ++ v ++ ',' :: t) ((key, tree) :: ms)

theorem follows_ws {w : Text} (hw : ∀ c ∈ w, isWs c = true) {c : Char}
    (hc : c.isDigit = false ∧ c ≠ '.' ∧ c ≠ 'e' ∧ c ≠ 'E') (t : Text) : Follows (w ++ c :: t) := by
  intro d hd
  cases w with
  | nil => exact Option.some.inj hd ▸ hc
  | cons d' w =>
      obtain rfl : d' = d := Option.some.inj hd
      have hws := hw d' List.mem_cons_self
      refine ⟨?_, ?_, ?_, ?_⟩
      · by_contra hdigit
        rw [(digit_starts (Bool.eq_true_of_not_eq_false hdigit)).1] at hws
        cases hws
      all_goals (rintro rfl; revert hws; decide)

theorem members_quoted {w k key : Text} (hw : ∀ c ∈ w, isWs c = true) (hk : Quoted k key) {n : ℕ}
    (hn : k.length ≤ n) (t : Text) :
    members (n + 1) (w ++ k ++ ':' :: t) = (value n t).bind fun r =>
      match skipWs r.2 with
      | ',' :: t => (members n t).map fun ms => ((key, r.1) :: ms.1, ms.2)
      | '}' :: t => some ([(key, r.1)], t)
      | _ => none := by
  obtain ⟨e, rfl, he⟩ := hk
  have hlen : e.length < n := by simp at hn; omega
  have hread := he n (':' :: t) hlen
  rw [members, List.append_assoc, skipWs_append hw]
  simp only [List.cons_append, List.append_assoc, List.nil_append]
  rw [skipWs_cons (by decide)]
  simp only [hread, Option.bind_eq_bind, Option.bind_some]
  rw [skipWs_cons (by decide)]
  rfl

/-- **The members of an object are read in order.** -/
theorem members_append {t : Text} {ms : List (Text × Ptree)} (h : Members t ms) :
    ∀ n rest, t.length ≤ n → members (n + 1) (t ++ rest) = some (ms, rest) := by
  induction h with
  | @last w k w' v w'' key tree hw hk hw' hv hw'' =>
      intro n rest hn
      simp only [List.length_append, List.length_cons, List.length_nil] at hn
      obtain ⟨n, rfl⟩ : ∃ m, n = m + 1 := ⟨n - 1, by omega⟩
      have hvalue := hv n (w'' ++ '}' :: rest) (by omega) (follows_ws hw'' (by decide) rest)
      have htext : w ++ k ++ ':' :: w' ++ v ++ w'' ++ ['}'] ++ rest =
          w ++ k ++ ':' :: (w' ++ (v ++ (w'' ++ '}' :: rest))) := by simp
      rw [htext, members_quoted hw hk (by omega), value_skip hw', hvalue, Option.bind_some]
      simp only [skipWs_append hw'']
      rw [skipWs_cons (by decide)]
      rfl
  | @cons w k w' v t key tree ms hw hk hw' hv h ih =>
      intro n rest hn
      simp only [List.length_append, List.length_cons] at hn
      obtain ⟨n, rfl⟩ : ∃ m, n = m + 1 := ⟨n - 1, by omega⟩
      have hvalue := hv n (',' :: (t ++ rest)) (by omega) (follows_ws (w := []) (by simp) (by decide) _)
      have htext : w ++ k ++ ':' :: w' ++ v ++ ',' :: t ++ rest =
          w ++ k ++ ':' :: (w' ++ (v ++ ',' :: (t ++ rest))) := by simp
      rw [htext, members_quoted hw hk (by omega), value_skip hw', hvalue, Option.bind_some]
      simp only
      rw [skipWs_cons (by decide)]
      simp only [ih n rest (by omega), Option.map_some]

/-- **An object is read member by member.** -/
theorem reads_object {t : Text} {ms : List (Text × Ptree)} (h : Members t ms) :
    Reads ('{' :: t) (.node [] ms) := by
  intro n rest hn _
  rw [List.length_cons] at hn
  obtain ⟨n, rfl⟩ : ∃ m, n = m + 1 := ⟨n - 1, by omega⟩
  have hread := members_append h n rest (by omega)
  rw [List.cons_append, value, skipWs_cons (by decide)]
  have hopen : ∀ u, skipWs (t ++ rest) ≠ '}' :: u := by
    intro u hu
    rw [members, hu] at hread
    cases hread
  have hskip : members (n + 1) (skipWs (t ++ rest)) = members (n + 1) (t ++ rest) := by
    rw [members, members, skipWs, skipWs, List.dropWhile_idempotent]
  split
  · rename_i u heq
    cases heq
    split
    · rename_i v hv
      exact absurd hv (hopen v)
    · rw [hskip, hread]
      rfl
  · rename_i heq
    cases heq
  · rename_i heq
    cases heq
  · rename_i hobject _ _
    exact absurd rfl (hobject _)

theorem reads_empty {w : Text} (hw : ∀ c ∈ w, isWs c = true) : Reads ('{' :: w ++ ['}']) (.leaf []) := by
  intro n rest _ _
  rw [value, List.cons_append, List.cons_append, skipWs_cons (by decide)]
  simp only [List.append_assoc, skipWs_append hw, List.cons_append, List.nil_append]
  rw [skipWs_cons (by decide)]
  rfl

/-- The text of a member of an object: a plain key, and the text of a value. -/
def memberText (m : Text × Text) : Text := '"' :: m.1 ++ "\": ".toList ++ m.2

/-- Members in a row are read in order. -/
theorem members_intercalate {sep w : Text} (hsep : ∀ c ∈ sep, isWs c = true) (hw : ∀ c ∈ w, isWs c = true)
    (ms : List (Text × Text × Ptree)) (m : Text × Text × Ptree)
    (h : ∀ m' ∈ m :: ms, (∀ c ∈ m'.1, plain c = true) ∧ Reads m'.2.1 m'.2.2) {lead : Text}
    (hlead : ∀ c ∈ lead, isWs c = true) :
    Members (lead ++ (',' :: sep).intercalate ((m :: ms).map fun m => memberText (m.1, m.2.1)) ++ w ++ ['}'])
      ((m :: ms).map fun m => (m.1, m.2.2)) := by
  have hone : ∀ c ∈ [' '], isWs c = true := by simp [isWs]
  induction ms generalizing m lead with
  | nil =>
      obtain ⟨hplain, hreads⟩ := h m List.mem_cons_self
      have hlast := Members.last hlead ⟨m.1, rfl, encodes_plain hplain⟩ hone hreads hw
      simpa [memberText] using hlast
  | cons m' ms ih =>
      obtain ⟨hplain, hreads⟩ := h m List.mem_cons_self
      have hrest := ih m' (fun m'' hm => h m'' (List.mem_cons_of_mem _ hm)) hsep
      have hcons := Members.cons hlead ⟨m.1, rfl, encodes_plain hplain⟩ hone hreads hrest
      simpa [memberText] using hcons

/-- **An object that is written member by member is read as its members.** -/
theorem reads_members {lead sep w : Text} (hlead : ∀ c ∈ lead, isWs c = true) (hsep : ∀ c ∈ sep, isWs c = true)
    (hw : ∀ c ∈ w, isWs c = true) {ms : List (Text × Text × Ptree)}
    (h : ∀ m ∈ ms, (∀ c ∈ m.1, plain c = true) ∧ Reads m.2.1 m.2.2) :
    Reads ('{' :: lead ++ (',' :: sep).intercalate (ms.map fun m => memberText (m.1, m.2.1)) ++ w ++ ['}'])
      (.node [] (ms.map fun m => (m.1, m.2.2))) := by
  cases ms with
  | nil =>
      have hblank : ∀ c ∈ lead ++ w, isWs c = true := by
        intro c hc
        rcases List.mem_append.mp hc with hc | hc
        · exact hlead c hc
        · exact hw c hc
      simpa [Ptree.leaf] using reads_empty hblank
  | cons m ms => simpa using reads_object (members_intercalate hsep hw ms m h hlead)

/-- The text of an object on one line. -/
def objectText (ms : List (Text × Text × Ptree)) : Text :=
  '{' :: ", ".toList.intercalate (ms.map fun m => memberText (m.1, m.2.1)) ++ ['}']

theorem reads_objectText (ms : List (Text × Text × Ptree))
    (h : ∀ m ∈ ms, (∀ c ∈ m.1, plain c = true) ∧ Reads m.2.1 m.2.2) :
    Reads (objectText ms) (.node [] (ms.map fun m => (m.1, m.2.2))) := by
  have hnone : ∀ c ∈ ([] : Text), isWs c = true := by simp
  have hone : ∀ c ∈ [' '], isWs c = true := by simp [isWs]
  have hread := reads_members hnone hone hnone h
  simpa [objectText] using hread

theorem isUtf8_memberText {m : Text × Text} (hkey : isUtf8 m.1 = true) (hvalue : isUtf8 m.2 = true) :
    isUtf8 (memberText m) = true :=
  isUtf8_append (isUtf8_append (isUtf8_append (t := ['"']) rfl hkey) rfl) hvalue

theorem isUtf8_objectText (ms : List (Text × Text × Ptree))
    (h : ∀ m ∈ ms, isUtf8 m.1 = true ∧ isUtf8 m.2.1 = true) : isUtf8 (objectText ms) = true := by
  refine isUtf8_append (isUtf8_append (t := ['{']) rfl (isUtf8_intercalate rfl fun t ht => ?_)) rfl
  obtain ⟨m, hm, rfl⟩ := List.mem_map.mp ht
  exact isUtf8_memberText (h m hm).1 (h m hm).2

/-- **A text that is read as a tree wherever it stands is read as that tree.** -/
theorem read_eq {t : Text} {tree : Ptree} (h : Reads t tree) (hutf8 : isUtf8 t = true) {w : Text}
    (hw : ∀ c ∈ w, isWs c = true) : read (t ++ w) = some tree := by
  have hascii : isUtf8 w = true := isUtf8_of_ascii fun c hc => by
    have hws := hw c hc
    simp only [isWs, Bool.or_eq_true, decide_eq_true_eq] at hws
    rcases hws with ((rfl | rfl) | rfl) | rfl <;> decide
  have hfollows : Follows w := by
    intro c hc
    cases w with
    | nil => cases hc
    | cons d w =>
        obtain rfl : d = c := Option.some.inj hc
        exact follows_ws (w := [d]) (by simpa using hw d List.mem_cons_self) (c := ' ') (by decide) [] d rfl
  have hvalue := h (t ++ w).length w (by simp) hfollows
  have hskip : skipWs w = [] := List.dropWhile_eq_nil_iff.mpr hw
  rw [read, if_pos (isUtf8_append hutf8 hascii), hvalue, Option.bind_some, if_pos hskip]

end Json
end Aes67Daemon
