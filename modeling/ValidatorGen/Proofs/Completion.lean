import ValidatorGen.Schema.Written
import ValidatorGen.Proofs.Traversal

/-!
# What the parts of a document are completed to

A document is completed part by part: the items of a list, the elements of a record that is given as
a list, the members of an object. Each of these goes through its parts in order and stops at the
first that fails. Where none fails the result is related to the parts one by one, both for values
and for values as they stand in a text; indexes, which only faults name, are of no account.

The functions are written with an index or with an accumulator, which an equation about their result
would have to carry along. The relations forget both. All proofs have one shape: the first part
either fails, and then nothing is related to it, or it has a result, and then that is the only thing
related to it; the rest is the induction.

Main results:

* `Schema.conformItems_eq_ok_iff`, `Schema.conformMembers_eq_ok_iff` — for values;
* `Json.itemsToJson_eq_ok_iff`, `Json.membersToJson_eq_ok_iff` — for what is written, read as any
  value at all;
* `Schema.conformWrittenItems_eq_ok_iff`, `Schema.conformWrittenMembers_eq_ok_iff` — for what is
  written, read against a shape, where no name may be given twice.
-/

namespace ValidatorGen

open Json (Fault Written)

/-! ## Names that are taken -/

namespace Json

theorem lookup?_eq_none_iff {name : String} {members : List (String × Json)} :
    lookup? name members = none ↔ name ∉ members.map Prod.fst := by
  induction members with
  | nil => simp [lookup?]
  | cons m rest ih =>
    by_cases h : m.1 = name
    · simp [lookup?, h]
    · simp [lookup?, h, ih, Ne.symm h]

/-- A new name goes to the end. -/
theorem insert_of_notMem {name : String} {members : List (String × Json)}
    (h : name ∉ members.map Prod.fst) (value : Json) :
    insert name value members = members ++ [(name, value)] := by
  induction members with
  | nil => rfl
  | cons m rest ih =>
    rw [List.map_cons, List.mem_cons, not_or] at h
    obtain ⟨hNe, hRest⟩ := h
    rw [insert, if_neg (Ne.symm hNe), ih hRest]
    rfl

/-- Names are new after one more has been taken if they were new before and are not that one. -/
theorem forall_notMem_concat_iff {names : List String} {members : List (String × Json)}
    {member : String × Json} :
    (∀ name ∈ names, name ∉ (members ++ [member]).map Prod.fst) ↔
      member.1 ∉ names ∧ ∀ name ∈ names, name ∉ members.map Prod.fst := by
  simp only [List.map_append, List.map_cons, List.map_nil, List.mem_append, List.mem_singleton]
  constructor
  · intro h
    exact ⟨fun hMem => h _ hMem (Or.inr rfl), fun name hName hMem => h name hName (Or.inl hMem)⟩
  · rintro ⟨hNe, h⟩ name hName (hMem | rfl)
    · exact h name hName hMem
    · exact hNe hName

end Json

/-! ## Values -/

namespace Schema

variable {ρ : Type} {schema : Schema ρ}

theorem conformItems_eq_ok_iff {shape : Shape ρ} {index : Nat} {items xs : List Json} :
    conformItems schema shape index items = .ok xs ↔
      List.Forall₂ (fun item x => conform schema shape item = .ok x) items xs := by
  induction items generalizing index xs with
  | nil => simp [conformItems, eq_comm]
  | cons item rest ih =>
    rw [conformItems, List.forall₂_cons_left_iff]
    cases conform schema shape item with
    | error fault => simp
    | ok x => simp [except_map_eq_ok_iff, ih]

/-- What is read for a field and the element at its place. The pairs come from zipping the fields
with the elements, so surplus elements are not looked at. -/
def ReadsElement (schema : Schema ρ) (p : Field ρ × Json) (r : String × Json) : Prop :=
  r.1 = p.1.name ∧ conform schema p.1.shape p.2 = .ok r.2

theorem conformElements_eq_ok_iff {fields : List (Field ρ)} {index : Nat} {items : List Json}
    {read : List (String × Json)} :
    conformElements schema fields index items = .ok read ↔
      List.Forall₂ (ReadsElement schema) (fields.zip items) read := by
  induction items generalizing fields index read with
  | nil => simp [conformElements, eq_comm]
  | cons item rest ih =>
    cases fields with
    | nil => simp [conformElements, eq_comm]
    | cons field fields =>
      rw [conformElements, List.zip_cons_cons, List.forall₂_cons_left_iff]
      cases hItem : conform schema field.shape item with
      | error fault =>
        have hNone : ∀ r, ¬ ReadsElement schema (field, item) r := by simp [ReadsElement, hItem]
        simp [hNone]
      | ok x =>
        have hOne : ∀ r, ReadsElement schema (field, item) r ↔ r = (field.name, x) := by
          simp [ReadsElement, hItem, Prod.ext_iff, eq_comm]
        simp [except_map_eq_ok_iff, ih, hOne]

/-- The member that is read for a member: it has the name of a field and is completed by its
shape. -/
def ReadsMember (schema : Schema ρ) (type : RecordType ρ) (m r : String × Json) : Prop :=
  r.1 = m.1 ∧ ∃ field, type.field? m.1 = some field ∧ conform schema field.shape m.2 = .ok r.2

theorem conformMembers_eq_ok_iff {type : RecordType ρ} {members read : List (String × Json)} :
    conformMembers schema type members = .ok read ↔
      List.Forall₂ (ReadsMember schema type) members read := by
  induction members generalizing read with
  | nil => simp [conformMembers, eq_comm]
  | cons m rest ih =>
    rw [conformMembers, List.forall₂_cons_left_iff]
    cases hField : type.field? m.1 with
    | none =>
      -- a name that is no field is refused
      have hNone : ∀ r, ¬ ReadsMember schema type m r := by simp [ReadsMember, hField]
      simp [hNone]
    | some field =>
      cases hValue : conform schema field.shape m.2 with
      | error fault =>
        have hNone : ∀ r, ¬ ReadsMember schema type m r := by simp [ReadsMember, hField, hValue]
        simp [hValue, hNone]
      | ok x =>
        have hOne : ∀ r, ReadsMember schema type m r ↔ r = (m.1, x) := by
          simp [ReadsMember, hField, hValue, Prod.ext_iff, eq_comm]
        simp [hValue, except_map_eq_ok_iff, ih, hOne]

end Schema

/-! ## Written values -/

namespace Json

theorem itemsToJson_eq_ok_iff {index : Nat} {items : List Written} {vs : List Json} :
    itemsToJson index items = .ok vs ↔ List.Forall₂ (fun w v => w.toJson = .ok v) items vs := by
  induction items generalizing index vs with
  | nil => simp [itemsToJson, eq_comm]
  | cons item rest ih =>
    rw [itemsToJson, List.forall₂_cons_left_iff]
    cases item.toJson with
    | error fault => simp
    | ok v => simp [except_map_eq_ok_iff, ih]

/-- The member that a written member is: it has the same name and the value that is written. -/
def Member.Is (m : Member Written) (r : String × Json) : Prop :=
  r.1 = m.name ∧ m.value.toJson = .ok r.2

/-- New names that are all different are put at the end one by one. -/
theorem membersToJson_eq_ok_iff {members : List (Member Written)} {done all : List (String × Json)}
    (hNames : (members.map Member.name).Nodup)
    (hNew : ∀ name ∈ members.map Member.name, name ∉ done.map Prod.fst) :
    membersToJson done members = .ok all ↔
      ∃ new, List.Forall₂ Member.Is members new ∧ all = done ++ new := by
  induction members generalizing done with
  | nil => simp [membersToJson, eq_comm]
  | cons m rest ih =>
    rw [List.map_cons, List.nodup_cons] at hNames
    rw [List.map_cons, List.forall_mem_cons] at hNew
    simp only [membersToJson, List.forall₂_cons_left_iff]
    cases hValue : m.value.toJson with
    | error fault =>
      have hNone : ∀ r, ¬ m.Is r := by simp [Member.Is, hValue]
      simp [hNone]
    | ok v =>
      -- a name that is new goes to the end of what is done, which the names that follow must not
      -- meet either
      have hOne : ∀ r, m.Is r ↔ r = (m.name, v) := by
        simp [Member.Is, hValue, Prod.ext_iff, eq_comm]
      simp only [insert_of_notMem hNew.1]
      rw [ih hNames.2 (forall_notMem_concat_iff.2 ⟨hNames.1, hNew.2⟩)]
      simp [hOne, List.append_assoc]

end Json

namespace Schema

variable {ρ : Type} {schema : Schema ρ}

theorem conformWrittenItems_eq_ok_iff {shape : Shape ρ} {index : Nat} {items : List Written}
    {xs : List Json} :
    conformWrittenItems schema shape index items = .ok xs ↔
      List.Forall₂ (fun w x => conformWritten schema shape w = .ok x) items xs := by
  induction items generalizing index xs with
  | nil => simp [conformWrittenItems, eq_comm]
  | cons item rest ih =>
    rw [conformWrittenItems, List.forall₂_cons_left_iff]
    cases conformWritten schema shape item with
    | error fault => simp
    | ok x => simp [except_map_eq_ok_iff, ih]

/-- What is read for a field and the written element at its place. -/
def ReadsWrittenElement (schema : Schema ρ) (p : Field ρ × Written) (r : String × Json) : Prop :=
  r.1 = p.1.name ∧ conformWritten schema p.1.shape p.2 = .ok r.2

theorem conformWrittenElements_eq_ok_iff {fields : List (Field ρ)} {index : Nat}
    {items : List Written} {read : List (String × Json)} :
    conformWrittenElements schema fields index items = .ok read ↔
      List.Forall₂ (ReadsWrittenElement schema) (fields.zip items) read := by
  induction items generalizing fields index read with
  | nil => simp [conformWrittenElements, eq_comm]
  | cons item rest ih =>
    cases fields with
    | nil => simp [conformWrittenElements, eq_comm]
    | cons field fields =>
      rw [conformWrittenElements, List.zip_cons_cons, List.forall₂_cons_left_iff]
      cases hItem : conformWritten schema field.shape item with
      | error fault =>
        have hNone : ∀ r, ¬ ReadsWrittenElement schema (field, item) r := by
          simp [ReadsWrittenElement, hItem]
        simp [hNone]
      | ok x =>
        have hOne : ∀ r, ReadsWrittenElement schema (field, item) r ↔ r = (field.name, x) := by
          simp [ReadsWrittenElement, hItem, Prod.ext_iff, eq_comm]
        simp [except_map_eq_ok_iff, ih, hOne]

/-- The member that is read for a written member: it has the name of a field and is completed by its
shape. -/
def ReadsWritten (schema : Schema ρ) (type : RecordType ρ) (m : Json.Member Written)
    (r : String × Json) : Prop :=
  r.1 = m.name ∧ ∃ field, type.field? m.name = some field ∧
    conformWritten schema field.shape m.value = .ok r.2

/-- Written members are read if no name is given twice, and then one by one. -/
theorem conformWrittenMembers_eq_ok_iff {type : RecordType ρ} {members : List (Json.Member Written)}
    {read all : List (String × Json)} :
    conformWrittenMembers schema type read members = .ok all ↔
      (members.map Json.Member.name).Nodup ∧
        (∀ name ∈ members.map Json.Member.name, name ∉ read.map Prod.fst) ∧
        ∃ new, List.Forall₂ (ReadsWritten schema type) members new ∧ all = read ++ new := by
  induction members generalizing read with
  | nil => simp [conformWrittenMembers, eq_comm]
  | cons m rest ih =>
    simp only [conformWrittenMembers, List.forall₂_cons_left_iff, List.map_cons, List.nodup_cons,
      List.forall_mem_cons]
    cases hField : type.field? m.name with
    | none =>
      have hNone : ∀ r, ¬ ReadsWritten schema type m r := by simp [ReadsWritten, hField]
      simp [hNone]
    | some field =>
      -- a name that was read before is a fault, whatever its value is
      by_cases hTaken : m.name ∈ read.map Prod.fst
      · have hSome : (Json.lookup? m.name read).isSome = true := by
          rw [Option.isSome_iff_ne_none, Ne, Json.lookup?_eq_none_iff, not_not]
          exact hTaken
        simp [hSome, hTaken]
      · have hFree : (Json.lookup? m.name read).isSome = false := by
          rw [Json.lookup?_eq_none_iff.2 hTaken]
          rfl
        cases hValue : conformWritten schema field.shape m.value with
        | error fault =>
          have hNone : ∀ r, ¬ ReadsWritten schema type m r := by
            simp [ReadsWritten, hField, hValue]
          simp [hNone, hFree, hValue]
        | ok x =>
          have hOne : ∀ r, ReadsWritten schema type m r ↔ r = (m.name, x) := by
            simp [ReadsWritten, hField, hValue, Prod.ext_iff, eq_comm]
          simp only [hFree, hValue, Bool.false_eq_true, if_false, ih,
            Json.forall_notMem_concat_iff]
          simp [hOne, hTaken, List.append_assoc, and_assoc, and_left_comm]

end Schema

end ValidatorGen
