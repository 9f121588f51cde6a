import Mathlib.Data.List.TakeDrop
import Mathlib.Data.List.TakeWhile
import ValidatorGen.Proofs.CompleteDocuments

/-!
# Documents as text and as values

A document can be checked against its shape while it is read from a text, or it can be read into a
value first and then be checked. Whatever the first way accepts, the second one accepts with the
same result. The converse holds for texts in which no object gives a name twice: a value keeps the
last member of a name, where the check of a text finds a fault.

Both ways go by the shape, and each of them stops at its first fault. They meet faults in different
orders: while a text is read, a list that is not closed is found out only after its items, and a
surplus element before it; of a value nothing is known but that all of it was there. So what is
compared is success alone. Each way has a characterisation of success for lists, records, objects
and choices, by which it accepts exactly if it accepts the parts, and the two theorems follow by
induction on what is written.

Writing a value down again cannot decide the matter, because a text has more in it than its value:
names that are given twice, and what follows the value.

Main results:

* `Schema.toJson_of_conformWritten` — what is accepted as it is read is accepted as a value;
* `Schema.conformWritten_of_toJson` — the converse, where names are distinct;
* `ofText_eq_ok_iff_parse` — the two ways accept the same documents and give the same.
-/

namespace ValidatorGen

open Json (Fault ListEnd ObjectEnd Position Written)

/-! ## Written values -/

namespace Json.Written

/-- A property of all written values, from the values that stand in a value to that value. -/
theorem induction {P : Written → Prop}
    (scalar : ∀ start value finish, P (.scalar start value finish))
    (broken : ∀ start fragment breach, P (.broken start fragment breach))
    (list : ∀ start items ending, (∀ item ∈ items, P item) → P (.list start items ending))
    (object : ∀ start members ending, (∀ m ∈ members, P m.value) →
      P (.object start members ending)) : ∀ w, P w
  | .scalar start value finish => scalar start value finish
  | .broken start fragment breach => broken start fragment breach
  | .list start items ending => list start items ending fun item _ =>
    induction scalar broken list object item
  | .object start members ending => object start members ending fun m _ =>
    induction scalar broken list object m.value
termination_by w => sizeOf w
decreasing_by
  · have := List.sizeOf_lt_of_mem ‹_›
    simp only [Written.list.sizeOf_spec]
    omega
  · have := List.sizeOf_lt_of_mem ‹_›
    cases m
    simp only [Json.Member.mk.sizeOf_spec, Written.object.sizeOf_spec] at this ⊢
    omega

/-- No object in the value gives a name twice. What broke off while it was read has no names that
count. -/
inductive DistinctNames : Written → Prop
  | scalar (start : Position) (value : Scalar) (finish : Position) :
    DistinctNames (.scalar start value finish)
  | broken (start : Position) (fragment : Fragment) (breach : Breach) :
    DistinctNames (.broken start fragment breach)
  | list {start : Position} {items : List Written} {ending : ListEnd}
    (items_distinct : ∀ item ∈ items, DistinctNames item) :
    DistinctNames (.list start items ending)
  | object {start : Position} {members : List (Json.Member Written)} {ending : ObjectEnd}
    (names_nodup : (members.map Json.Member.name).Nodup)
    (values_distinct : ∀ m ∈ members, DistinctNames m.value) :
    DistinctNames (.object start members ending)

mutual

/-- Whether `DistinctNames` holds, by looking. It makes the condition one that can be tested on a
given text. -/
def hasDistinctNames : Written → Bool
  | .scalar .. | .broken .. => true
  | .list _ items _ => itemsHaveDistinctNames items
  | .object _ members _ =>
    decide (members.map Json.Member.name).Nodup && membersHaveDistinctNames members

def itemsHaveDistinctNames : List Written → Bool
  | [] => true
  | item :: rest => item.hasDistinctNames && itemsHaveDistinctNames rest

def membersHaveDistinctNames : List (Json.Member Written) → Bool
  | [] => true
  | member :: rest => member.value.hasDistinctNames && membersHaveDistinctNames rest

end

theorem itemsHaveDistinctNames_iff {items : List Written} :
    itemsHaveDistinctNames items = true ↔ ∀ item ∈ items, item.hasDistinctNames = true := by
  induction items with
  | nil => simp [itemsHaveDistinctNames]
  | cons item rest ih => simp [itemsHaveDistinctNames, ih]

theorem membersHaveDistinctNames_iff {members : List (Json.Member Written)} :
    membersHaveDistinctNames members = true ↔ ∀ m ∈ members, m.value.hasDistinctNames = true := by
  induction members with
  | nil => simp [membersHaveDistinctNames]
  | cons m rest ih => simp [membersHaveDistinctNames, ih]

theorem hasDistinctNames_iff {w : Written} : w.hasDistinctNames = true ↔ w.DistinctNames := by
  constructor
  -- The check follows what is written, and the property is an induction of its own, so each
  -- direction has its own induction.
  · intro h
    induction w using Written.induction with
    | scalar start value finish => exact .scalar start value finish
    | broken start fragment breach => exact .broken start fragment breach
    | list start items ending ih =>
      rw [hasDistinctNames, itemsHaveDistinctNames_iff] at h
      exact .list fun item hItem => ih item hItem (h item hItem)
    | object start members ending ih =>
      rw [hasDistinctNames, Bool.and_eq_true, decide_eq_true_iff,
        membersHaveDistinctNames_iff] at h
      exact .object h.1 fun m hm => ih m hm (h.2 m hm)
  · intro h
    induction h with
    | scalar start value finish => rfl
    | broken start fragment breach => rfl
    | list _ ih =>
      rw [hasDistinctNames, itemsHaveDistinctNames_iff]
      exact ih
    | object hNames _ ih =>
      rw [hasDistinctNames, Bool.and_eq_true, decide_eq_true_iff, membersHaveDistinctNames_iff]
      exact ⟨hNames, ih⟩

/-- A list is a value if it is closed and its items are values. -/
theorem toJson_list_eq_ok_iff {start : Position} {items : List Written} {ending : ListEnd}
    {v : Json} :
    (Written.list start items ending).toJson = .ok v ↔
      ∃ vs bracket, itemsToJson 0 items = .ok vs ∧ ending = .closed bracket ∧ v = .array vs := by
  rw [toJson]
  cases itemsToJson 0 items with
  | error fault => simp
  | ok vs => cases ending <;> simp [eq_comm]

/-- An object is a value if it is closed and its members are values. -/
theorem toJson_object_eq_ok_iff {start : Position} {members : List (Json.Member Written)}
    {ending : ObjectEnd} {v : Json} :
    (Written.object start members ending).toJson = .ok v ↔
      ∃ vs brace, membersToJson [] members = .ok vs ∧ ending = .closed brace ∧ v = .object vs := by
  rw [toJson]
  cases membersToJson [] members with
  | error fault => simp
  | ok vs => cases ending <;> simp [eq_comm]

/-- Only null is written as null. -/
theorem eq_null_of_toJson {w : Written} (h : w.toJson = .ok .null) :
    ∃ start finish, w = .scalar start .null finish := by
  cases w with
  | scalar start value finish =>
    cases value with
    | null => exact ⟨start, finish, rfl⟩
    | _ => cases h
  | broken start fragment breach => cases h
  | list start items ending =>
    obtain ⟨vs, bracket, -, -, hValue⟩ := toJson_list_eq_ok_iff.1 h
    cases hValue
  | object start members ending =>
    obtain ⟨vs, brace, -, -, hValue⟩ := toJson_object_eq_ok_iff.1 h
    cases hValue

end Json.Written

/-! ## Accepted values -/

namespace Schema

variable {ρ : Type} {schema : Schema ρ} {shape : Shape ρ} {x : Json}

/-! ### Scalars -/

theorem conform_ofScalar_eq_ok_iff {value : Json.Scalar} :
    conform schema shape (.ofScalar value) = .ok x ↔ shape.ofScalar schema value = .ok x := by
  cases value <;> exact mapError_eq_ok_iff

/-- A scalar is checked against its shape alone. For a choice the text is read as a name. -/
theorem conformWritten_scalar_eq_ok_iff {start finish : Position} {value : Json.Scalar} :
    conformWritten schema shape (.scalar start value finish) = .ok x ↔
      shape.ofScalar schema value = .ok x := by
  cases shape with
  | oneOf names =>
    cases value with
    | string name => simp [conformWritten, mapError_eq_ok_iff]
    | _ => simp [conformWritten, Shape.ofScalar]
  | _ => simp [conformWritten, mapError_eq_ok_iff]

/-- Nothing that broke off is accepted, whatever the shape. -/
theorem conformWritten_broken_ne_ok {start : Position} {fragment : Json.Fragment}
    {breach : Json.Breach} :
    conformWritten schema shape (.broken start fragment breach) ≠ .ok x := by
  cases shape <;> cases fragment <;> simp [conformWritten]

/-! ### Lists -/

theorem conform_array_listOf_eq_ok_iff {item : Shape ρ} {items : List Json} :
    conform schema (.listOf item) (.array items) = .ok x ↔
      ∃ xs, conformItems schema item 0 items = .ok xs ∧ x = .array xs := by
  rw [conform]
  exact except_map_eq_ok_iff

theorem conformWritten_list_listOf_eq_ok_iff {item : Shape ρ} {start : Position}
    {items : List Written} {ending : ListEnd} :
    conformWritten schema (.listOf item) (.list start items ending) = .ok x ↔
      ∃ xs bracket, conformWrittenItems schema item 0 items = .ok xs ∧
        ending = .closed bracket ∧ x = .array xs := by
  rw [conformWritten]
  cases conformWrittenItems schema item 0 items with
  | error fault => simp
  | ok xs => cases ending <;> simp [eq_comm]

/-- A list is accepted for a record if it has at most as many elements as there are fields. -/
theorem conform_array_record_eq_ok_iff {type : ρ} {items : List Json} :
    conform schema (.record type) (.array items) = .ok x ↔
      ∃ read, conformElements schema (schema type).fields 0 items = .ok read ∧
        items.length ≤ (schema type).fields.length ∧ (schema type).ofElements read = .ok x := by
  rw [conform]
  cases conformElements schema (schema type).fields 0 items with
  | error fault => simp
  | ok read =>
    cases hFilled : (schema type).ofElements read with
    | error cause => simp [hFilled]
    | ok filled =>
      by_cases hLength : items.length ≤ (schema type).fields.length
      · simp [hFilled, hLength]
      · simp [hFilled, hLength]

/-- The same for a text, where surplus elements are seen before the end of the list is. -/
theorem conformWritten_list_record_eq_ok_iff {type : ρ} {start : Position} {items : List Written}
    {ending : ListEnd} :
    conformWritten schema (.record type) (.list start items ending) = .ok x ↔
      ∃ read bracket, conformWrittenElements schema (schema type).fields 0 items = .ok read ∧
        items.length ≤ (schema type).fields.length ∧ ending = .closed bracket ∧
        (schema type).ofElements read = .ok x := by
  rw [conformWritten]
  cases conformWrittenElements schema (schema type).fields 0 items with
  | error fault => simp
  | ok read =>
    by_cases hLength : items.length ≤ (schema type).fields.length
    · have hSurplus : items.drop (schema type).fields.length = [] := List.drop_eq_nil_iff.2 hLength
      cases ending with
      | closed bracket => simp [hSurplus, hLength, mapError_eq_ok_iff]
      | breaks breach => simp [hSurplus]
    · obtain ⟨surplus, rest, hSurplus⟩ : ∃ surplus rest,
          items.drop (schema type).fields.length = surplus :: rest :=
        List.exists_cons_of_ne_nil (mt List.drop_eq_nil_iff.1 hLength)
      simp [hSurplus, hLength]

/-! ### Objects -/

theorem conform_object_record_eq_ok_iff {type : ρ} {members : List (String × Json)} :
    conform schema (.record type) (.object members) = .ok x ↔
      ∃ read, conformMembers schema (schema type) members = .ok read ∧
        (schema type).ofMembers read = .ok x := by
  rw [conform]
  cases conformMembers schema (schema type) members with
  | error fault => simp
  | ok read => simp [mapError_eq_ok_iff]

theorem conformWritten_object_record_eq_ok_iff {type : ρ} {start : Position}
    {members : List (Json.Member Written)} {ending : ObjectEnd} :
    conformWritten schema (.record type) (.object start members ending) = .ok x ↔
      ∃ read brace, conformWrittenMembers schema (schema type) [] members = .ok read ∧
        ending = .closed brace ∧ (schema type).ofMembers read = .ok x := by
  rw [conformWritten]
  cases conformWrittenMembers schema (schema type) [] members with
  | error fault => simp
  | ok read => cases ending <;> simp [mapError_eq_ok_iff]

/-- An object is accepted for a choice if it has one member, which has the name of the choice and no
content. -/
theorem conform_object_oneOf_eq_ok_iff {names : List String} {members : List (String × Json)} :
    conform schema (.oneOf names) (.object members) = .ok x ↔
      ∃ name ∈ names, members = [(name, .null)] ∧ x = .string name := by
  match members with
  | [] => simp [conform]
  | [(name, content)] =>
    by_cases hName : name ∈ names
    · cases content <;> simp [conform, hName, eq_comm]
    · simp [conform, hName]
  | _ :: _ :: _ => simp [conform]

theorem choiceOfObject_eq_ok_iff {names : List String} {members : List (Json.Member Written)}
    {ending : ObjectEnd} :
    choiceOfObject names members ending = .ok x ↔
      ∃ m start finish brace, m.name ∈ names ∧ m.value = .scalar start .null finish ∧
        members = [m] ∧ ending = .closed brace ∧ x = .string m.name := by
  constructor
  -- Only the last branch gives a choice: one member, of a known name, with null, and the brace.
  · intro h
    unfold choiceOfObject at h
    split at h
    · cases h
    next m rest =>
      split at h
      · cases h
      next hName =>
        split at h
        next start finish hContent =>
          split at h
          · cases h
            exact ⟨m, start, finish, _, not_not.1 hName, hContent, rfl, rfl, rfl⟩
          · cases h
          · cases h
        · cases h
  · rintro ⟨m, start, finish, brace, hName, hContent, rfl, rfl, rfl⟩
    simp [choiceOfObject, hName, hContent]

/-! ## The two ways -/

/-- What is written is a value, and as a value it is accepted. This is the second way, put into one
relation for the inductions. -/
def AcceptedAsValue (schema : Schema ρ) (shape : Shape ρ) (w : Written) (x : Json) : Prop :=
  ∃ v, w.toJson = .ok v ∧ conform schema shape v = .ok x

theorem acceptedAsValue_anything_iff {w : Written} :
    AcceptedAsValue schema .anything w x ↔ w.toJson = .ok x := by
  constructor
  · rintro ⟨v, hValue, hAccepted⟩
    rw [Complete.anything v] at hAccepted
    cases hAccepted
    exact hValue
  · intro h
    exact ⟨x, h, Complete.anything x⟩

/-- A list is accepted item by item. -/
theorem acceptedAsValue_listOf_iff {item : Shape ρ} {start : Position} {items : List Written}
    {ending : ListEnd} :
    AcceptedAsValue schema (.listOf item) (.list start items ending) x ↔
      ∃ xs bracket, List.Forall₂ (AcceptedAsValue schema item) items xs ∧
        ending = .closed bracket ∧ x = .array xs := by
  constructor
  · rintro ⟨v, hValue, hAccepted⟩
    obtain ⟨vs, bracket, hItems, hEnding, rfl⟩ := Json.Written.toJson_list_eq_ok_iff.1 hValue
    obtain ⟨xs, hXs, rfl⟩ := conform_array_listOf_eq_ok_iff.1 hAccepted
    exact ⟨xs, bracket, forall₂_comp_iff.2
      ⟨vs, Json.itemsToJson_eq_ok_iff.1 hItems, conformItems_eq_ok_iff.1 hXs⟩, hEnding, rfl⟩
  · rintro ⟨xs, bracket, hItems, rfl, rfl⟩
    obtain ⟨vs, hValues, hAccepted⟩ := forall₂_comp_iff.1 hItems
    exact ⟨.array vs, Json.Written.toJson_list_eq_ok_iff.2
        ⟨vs, bracket, Json.itemsToJson_eq_ok_iff.2 hValues, rfl, rfl⟩,
      conform_array_listOf_eq_ok_iff.2 ⟨xs, conformItems_eq_ok_iff.2 hAccepted, rfl⟩⟩

/-- What is read, by way of a value, for a field and the written element at its place. -/
def ReadsElementAsValue (schema : Schema ρ) (p : Field ρ × Written) (r : String × Json) : Prop :=
  ∃ v, p.2.toJson = .ok v ∧ ReadsElement schema (p.1, v) r

theorem readsElementAsValue_iff {p : Field ρ × Written} {r : String × Json} :
    ReadsElementAsValue schema p r ↔
      r.1 = p.1.name ∧ AcceptedAsValue schema p.1.shape p.2 r.2 := by
  simp only [ReadsElementAsValue, AcceptedAsValue, ReadsElement]
  grind

/-- A list is accepted for a record field by field. -/
theorem acceptedAsValue_elements_iff {type : ρ} {start : Position} {items : List Written}
    {ending : ListEnd} :
    AcceptedAsValue schema (.record type) (.list start items ending) x ↔
      ∃ read bracket,
        List.Forall₂ (ReadsElementAsValue schema) ((schema type).fields.zip items) read ∧
        items.length ≤ (schema type).fields.length ∧ ending = .closed bracket ∧
        (schema type).ofElements read = .ok x := by
  constructor
  · rintro ⟨v, hValue, hAccepted⟩
    obtain ⟨vs, bracket, hItems, hEnding, rfl⟩ := Json.Written.toJson_list_eq_ok_iff.1 hValue
    obtain ⟨read, hRead, hLength, hFilled⟩ := conform_array_record_eq_ok_iff.1 hAccepted
    -- What is written and what is read are related by way of the values in between, one for each
    -- item.
    have hValues := Json.itemsToJson_eq_ok_iff.1 hItems
    rw [← hValues.length_eq] at hLength
    have hBoth := (forall₂_zip_comp_iff hLength).2 ⟨vs, hValues, conformElements_eq_ok_iff.1 hRead⟩
    exact ⟨read, bracket, hBoth, hLength, hEnding, hFilled⟩
  · rintro ⟨read, bracket, hBoth, hLength, rfl, hFilled⟩
    obtain ⟨vs, hValues, hRead⟩ :=
      (forall₂_zip_comp_iff (R := fun (w : Written) v => w.toJson = .ok v)
        (S := ReadsElement schema) hLength).1 hBoth
    refine ⟨.array vs, Json.Written.toJson_list_eq_ok_iff.2
      ⟨vs, bracket, Json.itemsToJson_eq_ok_iff.2 hValues, rfl, rfl⟩, ?_⟩
    rw [hValues.length_eq] at hLength
    exact conform_array_record_eq_ok_iff.2
      ⟨read, conformElements_eq_ok_iff.2 hRead, hLength, hFilled⟩

/-- The member that is read, by way of a value, for a written member. -/
def ReadsMemberAsValue (schema : Schema ρ) (type : RecordType ρ) (m : Json.Member Written)
    (r : String × Json) : Prop :=
  ∃ value, m.Is value ∧ ReadsMember schema type value r

theorem readsMemberAsValue_iff {type : RecordType ρ} {m : Json.Member Written}
    {r : String × Json} :
    ReadsMemberAsValue schema type m r ↔ r.1 = m.name ∧
      ∃ field, type.field? m.name = some field ∧
        AcceptedAsValue schema field.shape m.value r.2 := by
  simp only [ReadsMemberAsValue, AcceptedAsValue, ReadsMember, Json.Member.Is, Prod.exists]
  grind

/-- An object with distinct names is accepted for a record member by member. With distinct names the
members of the value are those that are written, one by one. -/
theorem acceptedAsValue_members_iff {type : ρ} {start : Position}
    {members : List (Json.Member Written)} {ending : ObjectEnd}
    (hNames : (members.map Json.Member.name).Nodup) :
    AcceptedAsValue schema (.record type) (.object start members ending) x ↔
      ∃ read brace, List.Forall₂ (ReadsMemberAsValue schema (schema type)) members read ∧
        ending = .closed brace ∧ (schema type).ofMembers read = .ok x := by
  -- A value keeps the last of several members of one name. Where names are distinct it keeps all.
  have hToJson : ∀ {all : List (String × Json)}, Json.membersToJson [] members = .ok all ↔
      List.Forall₂ Json.Member.Is members all := by
    intro all
    rw [Json.membersToJson_eq_ok_iff hNames fun _ _ => List.not_mem_nil]
    simp
  constructor
  · rintro ⟨v, hValue, hAccepted⟩
    obtain ⟨vs, brace, hMembers, hEnding, rfl⟩ := Json.Written.toJson_object_eq_ok_iff.1 hValue
    obtain ⟨read, hRead, hFilled⟩ := conform_object_record_eq_ok_iff.1 hAccepted
    have hBoth := forall₂_comp_iff.2 ⟨vs, hToJson.1 hMembers, conformMembers_eq_ok_iff.1 hRead⟩
    exact ⟨read, brace, hBoth, hEnding, hFilled⟩
  · rintro ⟨read, brace, hBoth, rfl, hFilled⟩
    obtain ⟨vs, hMembers, hRead⟩ := forall₂_comp_iff.1 hBoth
    exact ⟨.object vs, Json.Written.toJson_object_eq_ok_iff.2
        ⟨vs, brace, hToJson.2 hMembers, rfl, rfl⟩,
      conform_object_record_eq_ok_iff.2 ⟨read, conformMembers_eq_ok_iff.2 hRead, hFilled⟩⟩

/-- A choice that is written as an object is the same choice as a value. -/
theorem acceptedAsValue_choice_iff {names : List String} {start : Position}
    {members : List (Json.Member Written)} {ending : ObjectEnd}
    (hNames : (members.map Json.Member.name).Nodup) :
    AcceptedAsValue schema (.oneOf names) (.object start members ending) x ↔
      choiceOfObject names members ending = .ok x := by
  rw [choiceOfObject_eq_ok_iff]
  constructor
  · rintro ⟨v, hValue, hAccepted⟩
    obtain ⟨vs, brace, hMembers, hEnding, rfl⟩ := Json.Written.toJson_object_eq_ok_iff.1 hValue
    obtain ⟨name, hName, rfl, hX⟩ := conform_object_oneOf_eq_ok_iff.1 hAccepted
    obtain ⟨new, hNew, hAll⟩ :=
      (Json.membersToJson_eq_ok_iff hNames fun _ _ => List.not_mem_nil).1 hMembers
    rw [List.nil_append] at hAll
    subst hAll
    -- One member is read, so one member was written, and its value is null.
    obtain ⟨m, rest, ⟨hSame, hContent⟩, hRest, rfl⟩ := List.forall₂_cons_right_iff.1 hNew
    obtain rfl := List.forall₂_nil_right_iff.1 hRest
    obtain ⟨first, finish, hNull⟩ := Json.Written.eq_null_of_toJson hContent
    obtain rfl : name = m.name := hSame
    exact ⟨m, first, finish, brace, hName, hNull, rfl, hEnding, hX⟩
  · rintro ⟨m, first, finish, brace, hName, hContent, rfl, rfl, rfl⟩
    refine ⟨.object [(m.name, .null)], ?_,
      conform_object_oneOf_eq_ok_iff.2 ⟨m.name, hName, rfl, rfl⟩⟩
    simp [Json.membersToJson, hContent, Json.Written.toJson, Json.ofScalar, Json.insert]

/-- Whatever is accepted while it is read is a value, and is accepted as one. By induction on what
is written, for any shape. A record that is accepted has distinct names, so the members of the value
are those that were read. -/
theorem toJson_of_conformWritten {w : Written} (h : conformWritten schema shape w = .ok x) :
    AcceptedAsValue schema shape w x := by
  induction w using Json.Written.induction generalizing shape x with
  | scalar start value finish =>
    have hScalar := conformWritten_scalar_eq_ok_iff.1 h
    exact ⟨.ofScalar value, rfl, conform_ofScalar_eq_ok_iff.2 hScalar⟩
  | broken start fragment breach => exact absurd h conformWritten_broken_ne_ok
  | list start items ending ih =>
    cases shape with
    | anything => exact acceptedAsValue_anything_iff.2 (by simpa [conformWritten] using h)
    | listOf item =>
      obtain ⟨xs, bracket, hItems, hEnding, hX⟩ := conformWritten_list_listOf_eq_ok_iff.1 h
      have hBoth : List.Forall₂ (AcceptedAsValue schema item) items xs :=
        forall₂_imp_of_mem (conformWrittenItems_eq_ok_iff.1 hItems)
          fun w hw y _ hAccepted => ih w hw hAccepted
      exact acceptedAsValue_listOf_iff.2 ⟨xs, bracket, hBoth, hEnding, hX⟩
    | record type =>
      obtain ⟨read, bracket, hRead, hLength, hEnding, hFilled⟩ :=
        conformWritten_list_record_eq_ok_iff.1 h
      have hBoth : List.Forall₂ (ReadsElementAsValue schema) ((schema type).fields.zip items)
          read := by
        refine forall₂_imp_of_mem (conformWrittenElements_eq_ok_iff.1 hRead) ?_
        rintro p hp r - ⟨hName, hAccepted⟩
        exact readsElementAsValue_iff.2 ⟨hName, ih p.2 (List.of_mem_zip hp).2 hAccepted⟩
      exact acceptedAsValue_elements_iff.2 ⟨read, bracket, hBoth, hLength, hEnding, hFilled⟩
    | _ => simp [conformWritten] at h
  | object start members ending ih =>
    cases shape with
    | anything => exact acceptedAsValue_anything_iff.2 (by simpa [conformWritten] using h)
    | members =>
      have hValue : (Written.object start members ending).toJson = .ok x := by
        simpa [conformWritten] using h
      obtain ⟨vs, brace, -, -, rfl⟩ := Json.Written.toJson_object_eq_ok_iff.1 hValue
      exact ⟨.object vs, hValue, rfl⟩
    | oneOf names =>
      have hChoice : choiceOfObject names members ending = .ok x := by
        simpa [conformWritten] using h
      obtain ⟨m, -, -, -, -, -, hMembers, -⟩ := choiceOfObject_eq_ok_iff.1 hChoice
      have hNames : (members.map Json.Member.name).Nodup := by simp [hMembers]
      exact (acceptedAsValue_choice_iff hNames).2 hChoice
    | record type =>
      obtain ⟨read, brace, hRead, hEnding, hFilled⟩ := conformWritten_object_record_eq_ok_iff.1 h
      -- a name that is given twice has been refused
      obtain ⟨hNames, -, new, hNew, hAll⟩ := conformWrittenMembers_eq_ok_iff.1 hRead
      rw [List.nil_append] at hAll
      subst hAll
      have hBoth : List.Forall₂ (ReadsMemberAsValue schema (schema type)) members read := by
        refine forall₂_imp_of_mem hNew ?_
        rintro m hm r - ⟨hName, field, hField, hAccepted⟩
        exact readsMemberAsValue_iff.2 ⟨hName, field, hField, ih m hm hAccepted⟩
      exact (acceptedAsValue_members_iff hNames).2 ⟨read, brace, hBoth, hEnding, hFilled⟩
    | _ => simp [conformWritten] at h

/-- What is accepted as a value is accepted while it is read, where names are distinct. By induction
on the distinctness of the names. -/
theorem conformWritten_of_toJson {w : Written} (hDistinct : w.DistinctNames)
    (h : AcceptedAsValue schema shape w x) : conformWritten schema shape w = .ok x := by
  induction hDistinct generalizing shape x with
  | scalar start value finish =>
    obtain ⟨v, hValue, hAccepted⟩ := h
    cases hValue
    exact conformWritten_scalar_eq_ok_iff.2 (conform_ofScalar_eq_ok_iff.1 hAccepted)
  | broken start fragment breach =>
    obtain ⟨v, hValue, -⟩ := h
    cases hValue
  | @list start items ending _ ih =>
    cases shape with
    | anything => simpa [conformWritten] using acceptedAsValue_anything_iff.1 h
    | listOf item =>
      obtain ⟨xs, bracket, hBoth, hEnding, hX⟩ := acceptedAsValue_listOf_iff.1 h
      have hItems : conformWrittenItems schema item 0 items = .ok xs :=
        conformWrittenItems_eq_ok_iff.2 (forall₂_imp_of_mem hBoth fun w hw y _ hAccepted =>
          ih w hw hAccepted)
      exact conformWritten_list_listOf_eq_ok_iff.2 ⟨xs, bracket, hItems, hEnding, hX⟩
    -- Each element is read by the shape of the field at its place, so the induction is used at that
    -- shape.
    | record type =>
      obtain ⟨read, bracket, hBoth, hLength, hEnding, hFilled⟩ := acceptedAsValue_elements_iff.1 h
      have hRead : conformWrittenElements schema (schema type).fields 0 items = .ok read := by
        refine conformWrittenElements_eq_ok_iff.2 (forall₂_imp_of_mem hBoth ?_)
        intro p hp r _ hReads
        obtain ⟨hName, hAccepted⟩ := readsElementAsValue_iff.1 hReads
        exact ⟨hName, ih p.2 (List.of_mem_zip hp).2 hAccepted⟩
      exact conformWritten_list_record_eq_ok_iff.2
        ⟨read, bracket, hRead, hLength, hEnding, hFilled⟩
    | _ =>
      obtain ⟨v, hValue, hAccepted⟩ := h
      obtain ⟨vs, -, -, -, rfl⟩ := Json.Written.toJson_list_eq_ok_iff.1 hValue
      simp [conform] at hAccepted
  | @object start members ending hNames _ ih =>
    cases shape with
    | anything => simpa [conformWritten] using acceptedAsValue_anything_iff.1 h
    | members =>
      obtain ⟨v, hValue, hAccepted⟩ := h
      obtain ⟨vs, brace, -, -, rfl⟩ := Json.Written.toJson_object_eq_ok_iff.1 hValue
      cases hAccepted
      simpa [conformWritten] using hValue
    | oneOf names => simpa [conformWritten] using (acceptedAsValue_choice_iff hNames).1 h
    | record type =>
      obtain ⟨read, brace, hBoth, hEnding, hFilled⟩ := (acceptedAsValue_members_iff hNames).1 h
      have hRead : conformWrittenMembers schema (schema type) [] members = .ok read := by
        -- While it is read, a record refuses a name that was there before; distinct names are not
        -- refused.
        refine conformWrittenMembers_eq_ok_iff.2
          ⟨hNames, fun _ _ => List.not_mem_nil, read, forall₂_imp_of_mem hBoth ?_, rfl⟩
        intro m hm r _ hReads
        obtain ⟨hName, field, hField, hAccepted⟩ := readsMemberAsValue_iff.1 hReads
        exact ⟨hName, field, hField, ih m hm hAccepted⟩
      exact conformWritten_object_record_eq_ok_iff.2 ⟨read, brace, hRead, hEnding, hFilled⟩
    | _ =>
      obtain ⟨v, hValue, hAccepted⟩ := h
      obtain ⟨vs, -, -, -, rfl⟩ := Json.Written.toJson_object_eq_ok_iff.1 hValue
      simp [conform] at hAccepted

end Schema

/-! ## Texts -/

namespace Json

theorem Cursor.isEmpty_rest_skipSpace (c : Cursor) : c.skipSpace.rest.isEmpty = c.isBlank := by
  rw [Bool.eq_iff_iff, List.isEmpty_iff]
  simp [Cursor.skipSpace, Cursor.takeWhile, Cursor.past, Cursor.isBlank,
    List.span_eq_takeWhile_dropWhile, List.dropWhile_eq_nil_iff]

namespace Written

/-- Where the part that is read is whole, the reader has gone through it to its end. It relates the
two things a reader gives, what is written and where reading went on or broke off. -/
def Completed {α : Type} (whole : α → Prop) (r : Reading α) : Prop :=
  whole r.1 → ∃ after, r.2 = .ok after

theorem completed_readItems {readItem : Cursor → Reading Written} {bound : List Char} {c : Cursor} :
    Completed (fun list => ∃ bracket, list.2 = .closed bracket) (readItems readItem bound c) := by
  induction bound generalizing c with
  | nil => rintro ⟨_, ⟨⟩⟩
  | cons _ bound ih =>
    -- a list that breaks in an item, or after it, is not closed
    unfold readItems
    split
    · rintro ⟨_, ⟨⟩⟩
    · dsimp only
      split
      · exact fun _ => ⟨_, rfl⟩
      · rintro ⟨_, ⟨⟩⟩
      · split
        · rintro ⟨_, ⟨⟩⟩
        · exact ih

theorem completed_readMembers {readValue : Cursor → Reading Written} {bound : List Char}
    {c : Cursor} :
    Completed (fun object => ∃ brace, object.2 = .closed brace)
      (readMembers readValue bound c) := by
  induction bound generalizing c with
  | nil => rintro ⟨_, ⟨⟩⟩
  | cons _ bound ih =>
    -- an object may break at the name, in it, at the colon, in the value and after it
    unfold readMembers
    split
    · rintro ⟨_, ⟨⟩⟩
    · split
      · rintro ⟨_, ⟨⟩⟩
      · dsimp only
        split
        · rintro ⟨_, ⟨⟩⟩
        · split
          · rintro ⟨_, ⟨⟩⟩
          · split
            · exact fun _ => ⟨_, rfl⟩
            · rintro ⟨_, ⟨⟩⟩
            · split
              · rintro ⟨_, ⟨⟩⟩
              · exact ih

theorem completed_ofScalar {α : Type} {start : Position} {fragment : Fragment} {wrap : α → Scalar}
    {read : Except Breach (α × Cursor)} :
    Completed (fun w => ∃ v, w.toJson = .ok v) (ofScalar start fragment wrap read) := by
  cases read with
  | error breach => rintro ⟨_, ⟨⟩⟩
  | ok r => exact fun _ => ⟨r.2, rfl⟩

theorem completed_readList {readItem : Cursor → Reading Written} {start : Position} {c : Cursor} :
    Completed (fun w => ∃ v, w.toJson = .ok v) (readList readItem start c) := by
  unfold readList
  dsimp only
  split
  · exact fun _ => ⟨_, rfl⟩
  · split
    · rintro ⟨_, ⟨⟩⟩
    · rintro ⟨v, h⟩
      obtain ⟨_, bracket, -, hEnding, -⟩ := toJson_list_eq_ok_iff.1 h
      exact completed_readItems ⟨bracket, hEnding⟩

theorem completed_readObject {readValue : Cursor → Reading Written} {start : Position}
    {c : Cursor} :
    Completed (fun w => ∃ v, w.toJson = .ok v) (readObject readValue start c) := by
  unfold readObject
  dsimp only
  split
  · exact fun _ => ⟨_, rfl⟩
  · split
    · rintro ⟨_, ⟨⟩⟩
    · rintro ⟨v, h⟩
      obtain ⟨_, brace, -, hEnding, -⟩ := toJson_object_eq_ok_iff.1 h
      exact completed_readMembers ⟨brace, hEnding⟩

/-- What is a value has been read to its end. -/
theorem completed_readAt {depth : Nat} {c : Cursor} :
    Completed (fun w => ∃ v, w.toJson = .ok v) (readAt depth c) := by
  unfold readAt
  dsimp only
  split
  · rintro ⟨_, ⟨⟩⟩
  -- One case for each character with which a value starts. Where the depth is used up nothing is a
  -- value.
  · split
    · exact completed_ofScalar
    · exact completed_ofScalar
    · exact completed_ofScalar
    · exact completed_ofScalar
    · split
      · rintro ⟨_, ⟨⟩⟩
      · exact completed_readList
    · split
      · rintro ⟨_, ⟨⟩⟩
      · exact completed_readObject
    · split
      · exact completed_ofScalar
      · rintro ⟨_, ⟨⟩⟩

end Written

/-- A text is a value if the value that is written in it is one and only white space follows. -/
theorem parse_eq_ok_iff {text : String} {v : Json} :
    parse text = .ok v ↔ (Written.read text).1.toJson = .ok v ∧
      ∃ after, (Written.read text).2 = .ok after ∧ after.isBlank = true := by
  unfold parse
  rcases Written.read text with ⟨w, breach | after⟩
  · simp
  · cases hValue : w.toJson with
    | error fault => simp [hValue]
    | ok value =>
      simp only [hValue, Cursor.isEmpty_rest_skipSpace]
      by_cases hBlank : after.isBlank = true <;> simp [hBlank]

/-- Whether a text is one document at most: only white space stands after the first value, and no
object in it gives a name twice. Nothing is asked of a text in which reading breaks off. -/
structure IsSingleDocument (text : String) : Prop where
  blank_after : ∀ after, (Written.read text).2 = .ok after → after.isBlank = true
  distinctNames : (Written.read text).1.DistinctNames

theorem isSingleDocument_iff {text : String} :
    IsSingleDocument text ↔
      (Written.read text).2.toOption.all Cursor.isBlank = true ∧
        (Written.read text).1.hasDistinctNames = true := by
  rw [Written.hasDistinctNames_iff]
  constructor
  · rintro ⟨hBlank, hNames⟩
    refine ⟨?_, hNames⟩
    cases hOutcome : (Written.read text).2 with
    | error breach => rfl
    | ok after => exact hBlank after hOutcome
  · rintro ⟨hBlank, hNames⟩
    refine ⟨fun after hAfter => ?_, hNames⟩
    rw [hAfter] at hBlank
    exact hBlank

theorem IsSingleDocument.parse_eq_ok_iff {text : String} (hText : IsSingleDocument text)
    {v : Json} : parse text = .ok v ↔ (Written.read text).1.toJson = .ok v := by
  rw [Json.parse_eq_ok_iff]
  constructor
  · exact And.left
  · intro h
    obtain ⟨after, hAfter⟩ := Written.completed_readAt ⟨v, h⟩
    exact ⟨h, after, hAfter, hText.blank_after after hAfter⟩

end Json

/-- A text is read against a shape as the value in it is checked against the shape. -/
theorem Schema.read_eq_ok_iff {ρ : Type} {schema : Schema ρ} {shape : Shape ρ} {text : String}
    (hText : Json.IsSingleDocument text) {x : Json} :
    read schema shape text = .ok x ↔
      ∃ v, Json.parse text = .ok v ∧ conform schema shape v = .ok x := by
  simp only [hText.parse_eq_ok_iff]
  exact ⟨toJson_of_conformWritten, conformWritten_of_toJson hText.distinctNames⟩

/-- For a text that is a single document it makes no difference whether it is checked as it is read
or as the value that it is. Both ways give the same record, for snapshots and for configurations. -/
theorem ofText_eq_ok_iff_parse {text : String} (hText : Json.IsSingleDocument text) :
    (∀ c, Compilation.ofText text = .ok c ↔
        ∃ v, Json.parse text = .ok v ∧ Compilation.ofJson v = .ok c) ∧
      ∀ c, Config.ofText text = .ok c ↔ ∃ v, Json.parse text = .ok v ∧ Config.ofJson v = .ok c := by
  refine ⟨fun c => ?_, fun c => ?_⟩
  · simp only [Compilation.ofText, Compilation.ofJson, except_map_eq_ok_iff,
      Schema.read_eq_ok_iff hText]
    grind
  · simp only [Config.ofText, Config.ofJson, except_map_eq_ok_iff, Schema.read_eq_ok_iff hText]
    grind

/-- A snapshot with one empty file, and white space after it. -/
def emptyFileText : String :=
  "\x7b\"files\": [\x7b\"path\": \"A.cs\", \"types\": []\x7d]\x7d \n"

theorem isSingleDocument_emptyFileText : Json.IsSingleDocument emptyFileText :=
  Json.isSingleDocument_iff.2 ⟨by decide +kernel, by decide +kernel⟩

theorem ofText_eq_ok_iff_parse_emptyFile :
    (∀ c, Compilation.ofText emptyFileText = .ok c ↔
        ∃ v, Json.parse emptyFileText = .ok v ∧ Compilation.ofJson v = .ok c) ∧
      ∀ c, Config.ofText emptyFileText = .ok c ↔
        ∃ v, Json.parse emptyFileText = .ok v ∧ Config.ofJson v = .ok c :=
  ofText_eq_ok_iff_parse isSingleDocument_emptyFileText

end ValidatorGen
