/-
  HeadlessEditor.Proofs.Json.Wire

  Types whose values are read back from their JSON form (`LawfulWire`).

  For a record this comes to one fact for each member: it is found under its
  key behind any members with other keys.  An optional member is found too,
  unless its value is written as null, which counts as absent
  (`NeverNull`), or another member has its key.
-/

import HeadlessEditor.Json.Wire

namespace HeadlessEditor

/-- A type whose values are read back from their JSON form. -/
class LawfulWire (α : Type) [Wire α] : Prop where
  decode_encode (a : α) : decode (encode a) = some a

/-- A type none of whose values is written as null. -/
class NeverNull (α : Type) [Wire α] : Prop where
  encode_ne_null (a : α) : encode a ≠ Json.null

export LawfulWire (decode_encode)
export NeverNull (encode_ne_null)

namespace Json

-- ============================================================================
-- Values without structure
-- ============================================================================

instance : LawfulWire String :=
  ⟨fun _ => rfl⟩

instance : NeverNull String :=
  ⟨nofun⟩

instance : LawfulWire Bool :=
  ⟨fun _ => rfl⟩

instance : LawfulWire UInt32 where
  decode_encode n := by
    have hlt : n.toNat < 4294967296 := n.toNat_lt
    show (if 0 ≤ (n.toNat : Int) ∧ (n.toNat : Int) < 4294967296
      then some (UInt32.ofNat (n.toNat : Int).toNat) else none) = some n
    rw [if_pos (by omega), Int.toNat_natCast, UInt32.ofNat_toNat]

instance : LawfulWire Int32 where
  decode_encode n := by
    have hle : -2147483648 ≤ n.toInt := n.le_toInt
    have hlt : n.toInt < 2147483648 := n.toInt_lt
    show (if -2147483648 ≤ n.toInt ∧ n.toInt < 2147483648
      then some (Int32.ofInt n.toInt) else none) = some n
    rw [if_pos ⟨hle, hlt⟩, Int32.ofInt_toInt]

instance : NeverNull Int32 :=
  ⟨nofun⟩

variable {α β : Type} [Wire α] [Wire β]

/-- A list comes back with what its items come back as. -/
theorem mapM_decode_encode {settle : α → α} (hread : ∀ a : α, decode (encode a) = some (settle a))
    (xs : List α) : (xs.map encode).mapM decode = some (xs.map settle) := by
  induction xs with
  | nil => rfl
  | cons x rest ih =>
    rw [List.map_cons, List.mapM_cons, hread, ih]
    rfl

/-- Items each of which has one JSON form only are read from what they are written as. -/
theorem eq_map_encode_of_mapM_decode {js : List Json} {xs : List α}
    (hform : ∀ x ∈ xs, ∀ j, decode j = some x → j = encode x) (h : js.mapM decode = some xs) :
    js = xs.map encode := by
  induction js generalizing xs with
  | nil =>
    obtain rfl : [] = xs := Option.some.inj h
    rfl
  | cons j rest ih =>
    rw [List.mapM_cons, Option.bind_eq_bind, Option.bind_eq_some_iff] at h
    obtain ⟨x, hx, h⟩ := h
    obtain ⟨tail, htail, h⟩ := Option.bind_eq_some_iff.mp h
    obtain rfl : x :: tail = xs := Option.some.inj h
    obtain ⟨hfirst, hrest⟩ := List.forall_mem_cons.mp hform
    rw [List.map_cons, ← hfirst j hx, ← ih hrest htail]

instance [LawfulWire α] : LawfulWire (List α) where
  decode_encode xs := by
    have hread : ∀ a : α, decode (encode a) = some (id a) := decode_encode
    have h := mapM_decode_encode hread xs
    rwa [List.map_id] at h

instance : NeverNull (List α) :=
  ⟨nofun⟩

-- ============================================================================
-- Values in one of two forms
-- ============================================================================

/-! The form that is tried first is read if it can be, the other one if the first refuses what is
written. -/

section

variable {γ : Type} {j : Json} {a : α} {b : β}

theorem orElse_eq_firstForm (form : α → γ) (h : decode j = some a) (other : Option γ) :
    ((decode j).map form <|> other) = some (form a) := by
  rw [h, Option.map_some]
  rfl

theorem orElse_eq_secondForm (form : α → γ) (form' : β → γ)
    (hrefused : (decode j : Option α) = none) (h : decode j = some b) :
    ((decode j).map form <|> (decode j).map form') = some (form' b) := by
  rw [hrefused, h, Option.map_none, Option.map_some]
  rfl

end

-- ============================================================================
-- Members
-- ============================================================================

variable {key other : String} {a : α} {b : β} {value : Option α} {m : Members}

theorem lookup_member_self : (member key a ++ m).lookup key = some (encode a) :=
  List.lookup_cons_self

theorem lookup_member_of_ne (h : key ≠ other) :
    (member other b ++ m).lookup key = m.lookup key := by
  have hne : (key == other) = false := by simpa using h
  show ((other, encode b) :: m).lookup key = m.lookup key
  rw [List.lookup_cons, hne]

/-- What is written is read as the members it consists of. -/
theorem bind_members?_record {γ : Type} (keys : List String) (ms : List Members)
    (read : Members → Option γ) : (members? keys (record ms) >>= read) = read ms.flatten :=
  rfl

theorem required_member_self [LawfulWire α] : (member key a ++ m).required key = some a := by
  rw [Members.required, lookup_member_self, Option.bind_some, decode_encode]

theorem required_member_of_ne (h : key ≠ other) :
    (member other b ++ m).required key = (m.required key : Option α) := by
  rw [Members.required, lookup_member_of_ne h, Members.required]

theorem bind_required_self {γ : Type} [LawfulWire α] (read : α → Option γ) :
    ((member key a ++ m).required key >>= read) = read a := by
  rw [required_member_self]
  rfl

/-- A record of two required members is read back. -/
theorem read_pair {γ : Type} [LawfulWire α] [LawfulWire β] (h : other ≠ key) (a : α) (b : β)
    (build : α → β → γ) :
    (do
      let m ← members? [key, other] (record [member key a, member other b])
      return build (← m.required key) (← m.required other)) = some (build a b) := by
  rw [bind_members?_record, List.flatten_cons, List.flatten_cons, bind_required_self,
    required_member_of_ne h, bind_required_self]
  rfl

theorem optional_of_lookup_eq_none (h : m.lookup key = none) :
    m.optional key = some (none : Option α) := by
  rw [Members.optional, h]

theorem optional_of_lookup [NeverNull α] {a' : α} (h : m.lookup key = some (encode a))
    (hdecode : decode (encode a) = some a') : m.optional key = some (some a') := by
  have hread : (decode (encode a)).map some = some (some a') := by
    rw [hdecode, Option.map_some]
  have hnull := encode_ne_null a
  rw [Members.optional, h]
  generalize encode a = j at hread hnull
  cases j with
  | null => exact absurd rfl hnull
  | _ => exact hread

/-- An optional member comes back, under its key, with what its value comes back as, unless another
member has that key. -/
theorem optional_member?_settled [NeverNull α] {settle : α → α}
    (hread : ∀ a : α, decode (encode a) = some (settle a)) (h : m.lookup key = none) :
    (member? key value ++ m).optional key = some (value.map settle) := by
  cases value with
  | none => exact optional_of_lookup_eq_none h
  | some a => exact optional_of_lookup lookup_member_self (hread a)

theorem optional_member?_self [LawfulWire α] [NeverNull α] (h : m.lookup key = none) :
    (member? key value ++ m).optional key = some value := by
  have hread : ∀ a : α, decode (encode a) = some (id a) := decode_encode
  rw [optional_member?_settled hread h, Option.map_id_fun, id]

theorem optional_member_of_ne (h : key ≠ other) :
    (member other b ++ m).optional key = (m.optional key : Option (Option α)) := by
  rw [Members.optional, lookup_member_of_ne h, Members.optional]

theorem withDefault_member_self [LawfulWire α] (default : α) :
    (member key a ++ m).withDefault key default = some a := by
  rw [Members.withDefault, lookup_member_self]
  exact decode_encode a

theorem withDefault_member_of_ne (h : key ≠ other) (default : α) :
    (member other b ++ m).withDefault key default = m.withDefault key default := by
  rw [Members.withDefault, lookup_member_of_ne h, Members.withDefault]

-- ============================================================================
-- Records of any number of members
-- ============================================================================

/-! A member is found behind all the others, whether these are there or not, and also where it is
the last one.  With these lemmas `simp` reads a record from what it is written as, once
`bind_members?_record` has brought the two together. -/

section

variable {left : Option β}

theorem lookup_member?_of_ne (h : key ≠ other) :
    (member? other left ++ m).lookup key = m.lookup key := by
  cases left with
  | none => rfl
  | some b => exact lookup_member_of_ne h

theorem required_member?_of_ne (h : key ≠ other) :
    (member? other left ++ m).required key = (m.required key : Option α) := by
  rw [Members.required, lookup_member?_of_ne h, Members.required]

theorem optional_member?_of_ne (h : key ≠ other) :
    (member? other left ++ m).optional key = (m.optional key : Option (Option α)) := by
  rw [Members.optional, lookup_member?_of_ne h, Members.optional]

theorem lookup_member_last (h : key ≠ other) : (member other b).lookup key = none := by
  rw [← List.append_nil (member other b), lookup_member_of_ne h, List.lookup_nil]

theorem lookup_member?_last (h : key ≠ other) : (member? other left).lookup key = none := by
  rw [← List.append_nil (member? other left), lookup_member?_of_ne h, List.lookup_nil]

theorem required_member_last [LawfulWire α] : (member key a).required key = some a := by
  rw [← List.append_nil (member key a), required_member_self]

theorem withDefault_member_last [LawfulWire α] (default : α) :
    (member key a).withDefault key default = some a := by
  rw [← List.append_nil (member key a), withDefault_member_self]

theorem optional_member?_last [LawfulWire α] [NeverNull α] :
    (member? key value).optional key = some value := by
  rw [← List.append_nil (member? key value), optional_member?_self List.lookup_nil]

end

attribute [simp] lookup_member_of_ne lookup_member?_of_ne lookup_member_last lookup_member?_last
  required_member_self required_member_of_ne required_member?_of_ne required_member_last
  optional_member?_self optional_member_of_ne optional_member?_of_ne optional_member?_last
  withDefault_member_self withDefault_member_of_ne withDefault_member_last

-- ============================================================================
-- Members that are any JSON
-- ============================================================================

/-- A value as an optional member is read: null counts as absent. -/
def present? : Json → Option Json
  | .null => none
  | j => some j

theorem bind_present?_eq_self_iff {data : Option Json} :
    data.bind present? = data ↔ data ≠ some .null := by
  cases data with
  | none => exact ⟨fun _ => nofun, fun _ => rfl⟩
  | some j => cases j <;> simp [present?]

theorem optional_json_eq (m : Members) (key : String) :
    (m.optional key : Option (Option Json)) = some ((m.lookup key).bind present?) := by
  rw [Members.optional]
  cases m.lookup key with
  | none => rfl
  | some j => cases j <;> rfl

theorem lookup_member?_json {data : Option Json} : (member? key data).lookup key = data := by
  cases data with
  | none => rfl
  | some j => exact lookup_member_self

/-- Values come back without the null among the data attached to them, and otherwise as they
are. -/
structure LosesNull (attachments : α → List Json) (withoutNull : α → α) : Prop where
  decode_encode : ∀ a, decode (encode a) = some (withoutNull a)
  eq_self_iff : ∀ a, withoutNull a = a ↔ Json.null ∉ attachments a

namespace LosesNull

variable {attachments : α → List Json} {withoutNull : α → α}

theorem decode_encode_iff (h : LosesNull attachments withoutNull) (a : α) :
    decode (encode a) = some a ↔ Json.null ∉ attachments a := by
  rw [h.decode_encode, Option.some.injEq, h.eq_self_iff]

theorem list (h : LosesNull attachments withoutNull) :
    LosesNull (fun xs : List α => xs.flatMap attachments) (fun xs => xs.map withoutNull) where
  decode_encode := mapM_decode_encode h.decode_encode
  eq_self_iff xs := by
    calc xs.map withoutNull = xs
        ↔ xs.map withoutNull = xs.map id := by rw [List.map_id]
      _ ↔ ∀ a ∈ xs, withoutNull a = a := List.map_inj_left
      _ ↔ Json.null ∉ xs.flatMap attachments := by
          simp only [h.eq_self_iff, List.mem_flatMap, not_exists, not_and]

end LosesNull

end Json

end HeadlessEditor
