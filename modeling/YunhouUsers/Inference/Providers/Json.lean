import YunhouUsers.Inference.Providers.MessagesStream

/-!
The JSON values the translators write, as `json.Marshal` encodes them: the members of an object
stand in the order of their keys, text is escaped for HTML.
-/

namespace YunhouUsers.Inference.Providers

inductive Json where
  | null
  | num (n : Int)
  | str (s : String)
  | arr (items : List Json)
  | obj (members : List (String × Json))

namespace Json

def hexDigit (n : Nat) : UInt8 := if n < 10 then .ofNat (48 + n) else .ofNat (87 + n)

def hexEscape (n : Nat) : Bytes :=
  [92, 117, hexDigit (n / 4096 % 16), hexDigit (n / 256 % 16), hexDigit (n / 16 % 16),
    hexDigit (n % 16)]

def escape (c : Char) : Bytes :=
  if c = '"' ∨ c = '\\' then [92, .ofNat c.toNat]
  else if c.toNat = 8 then ascii "\\b"
  else if c.toNat = 9 then ascii "\\t"
  else if c.toNat = 10 then ascii "\\n"
  else if c.toNat = 12 then ascii "\\f"
  else if c.toNat = 13 then ascii "\\r"
  else if c.toNat < 32 ∨ c = '<' ∨ c = '>' ∨ c = '&' ∨ c.toNat = 0x2028 ∨ c.toNat = 0x2029 then
    hexEscape c.toNat
  else String.utf8EncodeChar c

def quote (s : String) : Bytes := 34 :: s.toList.flatMap escape ++ [34]

def digits (n : Nat) : Bytes := (Nat.toDigits 10 n).map (fun c => UInt8.ofNat c.toNat)

def number (n : Int) : Bytes := if n < 0 then 45 :: digits n.natAbs else digits n.natAbs

def commas : List Bytes → Bytes
  | [] => []
  | [part] => part
  | part :: parts => part ++ 44 :: commas parts

mutual

def marshal : Json → Bytes
  | .null => ascii "null"
  | .num n => number n
  | .str s => quote s
  | .arr items => 91 :: commas (marshalItems items) ++ [93]
  | .obj members => 123 :: commas (marshalMembers members) ++ [125]

def marshalItems : List Json → List Bytes
  | [] => []
  | item :: items => marshal item :: marshalItems items

def marshalMembers : List (String × Json) → List Bytes
  | [] => []
  | (key, value) :: members => (quote key ++ 58 :: marshal value) :: marshalMembers members

end

theorem marshalItems_eq (items : List Json) : marshalItems items = items.map marshal := by
  induction items with
  | nil => rfl
  | cons item items ih => rw [marshalItems, ih, List.map_cons]

variable (members : List (String × Json))

theorem marshalMembers_eq :
    marshalMembers members = members.map (fun m => quote m.1 ++ 58 :: marshal m.2) := by
  induction members with
  | nil => rfl
  | cons m members ih => rw [marshalMembers, ih, List.map_cons]

/-! An encoded value stays on one line. -/

theorem newline_hexEscape (n : Nat) : newline ∉ hexEscape n := by
  have digit : ∀ d < 16, hexDigit d ≠ newline := by decide
  have bound (m : Nat) : m % 16 < 16 := Nat.mod_lt _ (by decide)
  simp only [hexEscape, List.mem_cons, List.not_mem_nil, or_false, not_or]
  exact ⟨by decide, by decide, (digit _ (bound _)).symm, (digit _ (bound _)).symm,
    (digit _ (bound _)).symm, (digit _ (bound _)).symm⟩

theorem newline_ne_ofNat {n : Nat} (other : n % 256 ≠ 10) : newline ≠ UInt8.ofNat n := by
  intro same
  have := congrArg UInt8.toNat same
  simp [newline] at this
  omega

theorem newline_utf8 {c : Char} (other : c.toNat ≠ 10) : newline ∉ String.utf8EncodeChar c := by
  have value : c.val.toNat = c.toNat := rfl
  unfold String.utf8EncodeChar
  dsimp only
  rw [value]
  split_ifs
  · simp only [List.mem_singleton]
    exact newline_ne_ofNat (by omega)
  · simp only [List.mem_cons, List.not_mem_nil, or_false, not_or]
    exact ⟨newline_ne_ofNat (by omega), newline_ne_ofNat (by omega)⟩
  · simp only [List.mem_cons, List.not_mem_nil, or_false, not_or]
    exact ⟨newline_ne_ofNat (by omega), newline_ne_ofNat (by omega), newline_ne_ofNat (by omega)⟩
  · simp only [List.mem_cons, List.not_mem_nil, or_false, not_or]
    exact ⟨newline_ne_ofNat (by omega), newline_ne_ofNat (by omega), newline_ne_ofNat (by omega),
      newline_ne_ofNat (by omega)⟩

theorem newline_escape (c : Char) : newline ∉ escape c := by
  unfold escape
  split_ifs with special _ _ line
  · rcases special with rfl | rfl <;> decide
  · decide
  · decide
  · decide
  · decide
  · decide
  · exact newline_hexEscape _
  · exact newline_utf8 line

theorem newline_quote (s : String) : newline ∉ quote s := by
  simp only [quote, List.cons_append, List.mem_cons, List.mem_append, List.mem_flatMap,
    List.not_mem_nil, or_false, not_or, not_exists, not_and]
  exact ⟨by decide, fun c _ => newline_escape c, by decide⟩

theorem newline_digits (n : Nat) : newline ∉ digits n := by
  simp only [digits, List.mem_map, not_exists, not_and]
  intro c mem
  have digit := Nat.isDigit_of_mem_toDigits (by decide) (by decide) mem
  simp only [Char.isDigit, Bool.and_eq_true, decide_eq_true_eq, UInt32.le_iff_toNat_le] at digit
  have range : 48 ≤ c.toNat ∧ c.toNat ≤ 57 := digit
  exact (newline_ne_ofNat (by omega)).symm

theorem newline_number (n : Int) : newline ∉ number n := by
  unfold number
  split_ifs
  · simp only [List.mem_cons, not_or]
    exact ⟨by decide, newline_digits _⟩
  · exact newline_digits _

theorem mem_commas {b : UInt8} {parts : List Bytes} (mem : b ∈ commas parts) :
    b = 44 ∨ ∃ part ∈ parts, b ∈ part := by
  fun_induction commas parts with
  | case1 => cases mem
  | case2 part => exact .inr ⟨part, by simp, mem⟩
  | case3 part parts _ ih =>
    rcases List.mem_append.mp mem with mem | mem
    · exact .inr ⟨part, by simp, mem⟩
    · rcases List.mem_cons.mp mem with comma | mem
      · exact .inl comma
      · rcases ih mem with comma | ⟨other, inside, mem⟩
        · exact .inl comma
        · exact .inr ⟨other, List.mem_cons_of_mem _ inside, mem⟩

theorem newline_bracket {l r : UInt8} {parts : List Bytes} (left : newline ≠ l)
    (right : newline ≠ r) (free : ∀ part ∈ parts, newline ∉ part) :
    newline ∉ l :: commas parts ++ [r] := by
  simp only [List.cons_append, List.mem_cons, List.mem_append, List.not_mem_nil, or_false, not_or]
  refine ⟨left, fun mem => ?_, right⟩
  rcases mem_commas mem with comma | ⟨part, inside, mem⟩
  · exact absurd comma (by decide)
  · exact free part inside mem

mutual

theorem newline_marshal : ∀ v : Json, newline ∉ marshal v
  | .null => by decide
  | .num n => by
    rw [marshal]
    exact newline_number n
  | .str s => by
    rw [marshal]
    exact newline_quote s
  | .arr items => by
    rw [marshal]
    exact newline_bracket (by decide) (by decide) (newline_items items)
  | .obj members => by
    rw [marshal]
    exact newline_bracket (by decide) (by decide) (newline_members members)

theorem newline_items : ∀ items : List Json, ∀ part ∈ marshalItems items, newline ∉ part
  | [] => by simp [marshalItems]
  | item :: items => by
    rw [marshalItems]
    exact List.forall_mem_cons.mpr ⟨newline_marshal item, newline_items items⟩

theorem newline_members :
    ∀ members : List (String × Json), ∀ part ∈ marshalMembers members, newline ∉ part
  | [] => by simp [marshalMembers]
  | (key, value) :: members => by
    rw [marshalMembers]
    refine List.forall_mem_cons.mpr ⟨?_, newline_members members⟩
    simp only [List.mem_append, List.mem_cons, not_or]
    exact ⟨newline_quote key, by decide, newline_marshal value⟩

end

/-! The quoted key of every member can be found in the text. -/

theorem infix_commas {part : Bytes} {parts : List Bytes} (mem : part ∈ parts) :
    part <:+: commas parts := by
  fun_induction commas parts with
  | case1 => cases mem
  | case2 other =>
    cases List.mem_singleton.mp mem
    exact List.infix_rfl
  | case3 other parts _ ih =>
    rcases List.mem_cons.mp mem with rfl | mem
    · exact ⟨[], 44 :: commas parts, rfl⟩
    · exact (ih mem).trans ⟨other ++ [44], [], by simp⟩

theorem infix_item {item : Json} {items : List Json} (mem : item ∈ items) :
    marshal item <:+: marshal (.arr items) := by
  rw [marshal, marshalItems_eq]
  exact (infix_commas (List.mem_map_of_mem mem)).trans ⟨[91], [93], rfl⟩

theorem infix_member {key : String} {value : Json} {members : List (String × Json)}
    (mem : (key, value) ∈ members) :
    quote key ++ 58 :: marshal value <:+: marshal (.obj members) := by
  rw [marshal, marshalMembers_eq]
  have part := List.mem_map_of_mem
    (f := fun m : String × Json => quote m.1 ++ 58 :: marshal m.2) mem
  exact (infix_commas part).trans ⟨[123], [125], rfl⟩

theorem infix_key {key : String} {value : Json} {members : List (String × Json)}
    (mem : (key, value) ∈ members) : quote key <:+: marshal (.obj members) :=
  List.IsInfix.trans ⟨[], 58 :: marshal value, rfl⟩ (infix_member mem)

theorem infix_value {key : String} {value : Json} {members : List (String × Json)}
    (mem : (key, value) ∈ members) : marshal value <:+: marshal (.obj members) :=
  List.IsInfix.trans ⟨quote key ++ [58], [], by simp⟩ (infix_member mem)

theorem braces_not_space : ∀ w ∈ Trim.spaces.map String.utf8EncodeChar,
    w ≠ [] ∧ (123 : UInt8) ∉ w ∧ (125 : UInt8) ∉ w := by
  decide

theorem trimSpace_brace (text : Bytes) :
    trimSpace (text ++ [125]) =
      Trim.trimLeft (Trim.spaces.map String.utf8EncodeChar) 0 text ++ [125] :=
  Trim.trim_concat text fun w mem => ⟨(braces_not_space w mem).1, (braces_not_space w mem).2.2⟩

theorem trimSpace_obj : trimSpace (32 :: marshal (.obj members)) = marshal (.obj members) := by
  have front := Trim.trimLeft_append [32] (commas (marshalMembers members))
    (fun w mem => ⟨(braces_not_space w mem).1, (braces_not_space w mem).2.1⟩) 0 (Nat.zero_le _)
  rw [show Trim.trimLeft (Trim.spaces.map String.utf8EncodeChar) 0 [32] = [] by decide] at front
  rw [marshal]
  exact (trimSpace_brace _).trans (congrArg (· ++ [125]) front)

theorem head_obj : (marshal (.obj members)).head? = some 123 := by
  rw [marshal]
  rfl

/-! How a decoded value is read. -/

def member (key : String) : Json → Option Json
  | .obj members => (members.find? (fun m => m.1 = key)).map Prod.snd
  | _ => none

def items : Json → List Json
  | .arr items => items
  | _ => []

def text : Json → String
  | .str s => s
  | _ => ""

def int : Json → Option Int
  | .num n => some n
  | _ => none

end Json

end YunhouUsers.Inference.Providers
