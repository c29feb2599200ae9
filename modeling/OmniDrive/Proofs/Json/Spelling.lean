import Mathlib.Data.List.Perm.Basic
import OmniDrive.Proofs.Json.Writing

/-! Which JSON values spell a value of the domain. Records and cases have several spellings each:
fields come in any order among other members, or as an array; a case without contents may come with
a null; and names may be written with any escapes. -/
namespace OmniDrive

/-- A type whose values are spelled by JSON values. -/
class Spelling (α : Type) where
  Spells : α → Json → Prop

export Spelling (Spells)

/-- A type whose JSON form reads every spelling and nothing else, and writes one of them, in text
that can be read. -/
class LawfulForm (α : Type) [JsonForm α] [Spelling α] : Prop where
  ofJson_eq_some_iff {j : Json} {a : α} : ofJson j = some a ↔ Spells a j
  spells_toJson (a : α) : Spells a (toJson a)
  writes_toJson (a : α) : (toJson a).Writes

export LawfulForm (ofJson_eq_some_iff spells_toJson writes_toJson)

namespace Json

variable {α β : Type}

theorem mapM_eq_some_iff {f : α → Option β} {as : List α} {bs : List β} :
    as.mapM f = some bs ↔ List.Forall₂ (fun a b => f a = some b) as bs := by
  induction as generalizing bs with
  | nil => simp [eq_comm]
  | cons a as ih =>
    simp only [List.mapM_cons, List.forall₂_cons_left_iff, ← ih]
    cases f a with
    | none => simp
    | some b => cases as.mapM f <;> simp [eq_comm]

/-- What is listed under a name, if nothing is listed under it twice. -/
theorem find?_fst_eq_some_iff {entries : List (String × α)}
    (different : (entries.map Prod.fst).Nodup) {name : String} {a : α} :
    (entries.find? (·.1 = name)).map (·.2) = some a ↔ (name, a) ∈ entries := by
  induction entries with
  | nil => simp
  | cons entry entries ih =>
    obtain ⟨fresh, rest⟩ := List.nodup_cons.1 different
    by_cases here : entry.1 = name
    · rw [List.find?_cons_of_pos (by simpa using here), List.mem_cons]
      constructor
      · intro same
        exact .inl (Prod.ext here.symm (Option.some.inj same).symm)
      · rintro (same | later)
        · rw [← same]
          rfl
        · exact absurd (List.mem_map_of_mem later) (here ▸ fresh)
    · rw [List.find?_cons_of_neg (by simpa using here), ih rest, List.mem_cons]
      refine (or_iff_right fun same => here ?_).symm
      rw [← same]

/-! ### Cases -/

/-- The value names a case, and has contents or none. -/
inductive CaseSpelled (name : String) : Option Json → Json → Prop
  | alone {text : Text} : text.string? = some name → CaseSpelled name none (.string text)
  | withContents {text : Text} (contents : Json) : text.string? = some name →
    CaseSpelled name (some contents) (.object [(text, contents)])

/-- A case without contents, alone or with a null. -/
def SpellsBare (name : String) (j : Json) : Prop :=
  CaseSpelled name none j ∨ CaseSpelled name (some .null) j

/-- A case with its contents. -/
def SpellsWith (name : String) (P : Json → Prop) (j : Json) : Prop :=
  ∃ contents, CaseSpelled name (some contents) j ∧ P contents

/-- One of the listed cases, none of which has contents. -/
def SpellsListed (cases : List (String × α)) (a : α) (j : Json) : Prop :=
  ∃ name, (name, a) ∈ cases ∧ SpellsBare name j

/-- One of the listed cases, or the tagged case, which has contents. -/
def SpellsCase [Spelling β] (tag : String) (wrap : β → α) (cases : List (String × α)) (a : α)
    (j : Json) : Prop :=
  (∃ b, a = wrap b ∧ SpellsWith tag (Spells b) j) ∨ SpellsListed cases a j

variable {j : Json} {name tag : String} {contents : Option Json} {cases : List (String × α)} {a : α}

theorem case?_eq_some_iff : case? j = some (name, contents) ↔ CaseSpelled name contents j := by
  constructor
  · intro h
    unfold case? at h
    split at h
    · obtain ⟨_, ht, h⟩ := Option.bind_eq_some_iff.1 h
      cases h
      exact .alone ht
    · obtain ⟨_, ht, h⟩ := Option.bind_eq_some_iff.1 h
      cases h
      exact .withContents _ ht
    · cases h
  · intro h
    cases h with
    | alone ht => simp [case?, ht]
    | withContents contents ht => simp [case?, ht]

theorem bare_iff : bare contents = true ↔ contents = none ∨ contents = some .null := by
  unfold bare
  split
  · simp
  · simp
  · rename_i absent null
    simp only [Bool.false_eq_true, false_iff, not_or]
    exact ⟨absent, null⟩

theorem bareCase?_eq_some_iff (different : (cases.map Prod.fst).Nodup) :
    bareCase? cases name contents = some a ↔
      (contents = none ∨ contents = some .null) ∧ (name, a) ∈ cases := by
  unfold bareCase?
  rw [← bare_iff, ← find?_fst_eq_some_iff different]
  split
  · simp [*]
  · simp [*]

/-- Cases without contents are read from all their spellings. -/
theorem readListed_eq_some_iff (different : (cases.map Prod.fst).Nodup) :
    (do
      let (name, contents) ← case? j
      bareCase? cases name contents) = some a ↔ SpellsListed cases a j := by
  constructor
  · intro h
    obtain ⟨⟨name, contents⟩, hc, h⟩ := Option.bind_eq_some_iff.1 h
    have spelled := case?_eq_some_iff.1 hc
    obtain ⟨rfl | rfl, listed⟩ := (bareCase?_eq_some_iff different).1 h
    · exact ⟨name, listed, .inl spelled⟩
    · exact ⟨name, listed, .inr spelled⟩
  · rintro ⟨name, listed, spelled | spelled⟩
    · exact Option.bind_eq_some_iff.2
        ⟨(name, none), case?_eq_some_iff.2 spelled, (bareCase?_eq_some_iff different).2
          ⟨.inl rfl, listed⟩⟩
    · exact Option.bind_eq_some_iff.2
        ⟨(name, some .null), case?_eq_some_iff.2 spelled, (bareCase?_eq_some_iff different).2
          ⟨.inr rfl, listed⟩⟩

/-- So are cases among which one has contents. -/
theorem readCase_eq_some_iff [JsonForm β] [Spelling β] [LawfulForm β] {wrap : β → α}
    (different : (cases.map Prod.fst).Nodup) (fresh : tag ∉ cases.map Prod.fst) :
    (do
      let (name, contents) ← case? j
      if name = tag then return wrap (← ofJson (← contents))
      else bareCase? cases name contents) = some a ↔ SpellsCase tag wrap cases a j := by
  constructor
  · intro h
    obtain ⟨⟨name, contents⟩, hc, h⟩ := Option.bind_eq_some_iff.1 h
    dsimp only at h
    split at h
    · subst name
      obtain ⟨inner, given, h⟩ := Option.bind_eq_some_iff.1 h
      obtain ⟨b, hb, h⟩ := Option.bind_eq_some_iff.1 h
      cases h
      subst given
      exact .inl ⟨b, rfl, inner, case?_eq_some_iff.1 hc, ofJson_eq_some_iff.1 hb⟩
    · exact .inr ((readListed_eq_some_iff different).1 (Option.bind_eq_some_iff.2 ⟨_, hc, h⟩))
  · rintro (⟨b, rfl, inner, spelled, spells⟩ | listed)
    · simp [case?_eq_some_iff.2 spelled, ofJson_eq_some_iff.2 spells]
    · obtain ⟨⟨name, contents⟩, hc, h⟩ :=
        Option.bind_eq_some_iff.1 ((readListed_eq_some_iff different).2 listed)
      have other : name ≠ tag := by
        rintro rfl
        exact fresh (List.mem_map_of_mem ((bareCase?_eq_some_iff different).1 h).2)
      simp [hc, other, h]

/-! ### How cases are written -/

section

variable [JsonForm α]

/-- A listed case that is written as its name. -/
def WrittenBare (cases : List (String × α)) (a : α) : Prop :=
  ∃ name, (name, a) ∈ cases ∧ toJson a = case name

theorem WrittenBare.spells (h : WrittenBare cases a) : SpellsListed cases a (toJson a) := by
  obtain ⟨name, mem, same⟩ := h
  rw [same]
  exact ⟨name, mem, .inl (.alone (Text.string?_ofString name))⟩

theorem WrittenBare.writes (h : WrittenBare cases a) (plain : ∀ entry ∈ cases, IsPlain entry.1) :
    (toJson a).Writes := by
  obtain ⟨name, mem, same⟩ := h
  rw [same]
  exact writes_string (plain _ mem)

variable [JsonForm β] [Spelling β] [LawfulForm β] {wrap : β → α}

/-- The tagged case with its contents, or a listed case. -/
def Written (tag : String) (wrap : β → α) (cases : List (String × α)) (a : α) : Prop :=
  (∃ b, a = wrap b ∧ toJson a = caseOf tag (toJson b)) ∨ WrittenBare cases a

theorem Written.spells (h : Written tag wrap cases a) : SpellsCase tag wrap cases a (toJson a) := by
  rcases h with ⟨b, rfl, same⟩ | bare
  · rw [same]
    exact .inl ⟨b, rfl, toJson b, .withContents _ (Text.string?_ofString tag), spells_toJson b⟩
  · exact .inr bare.spells

theorem Written.writes (h : Written tag wrap cases a) (tagged : IsPlain tag)
    (plain : ∀ entry ∈ cases, IsPlain entry.1) : (toJson a).Writes := by
  rcases h with ⟨b, rfl, same⟩ | bare
  · rw [same]
    exact writes_record [tag] rfl (List.forall_mem_singleton.2 tagged)
      (List.forall_mem_singleton.2 (writes_toJson b) : ∀ m ∈ [(tag, toJson b)], m.2.Writes)
  · exact bare.writes plain

end

/-! ### Records -/

/-- The fields of a record: each with its name and what its value, or lack of one, must be. -/
abbrev Fields := List (String × (Option Json → Prop))

/-- The field is given, with such a value. -/
def Given (P : Json → Prop) (value : Option Json) : Prop := ∃ j, value = some j ∧ P j

/-- The field is given with such a value, or left out where null would be such a value. -/
def GivenOrNull (P : Json → Prop) (value : Option Json) : Prop := P (value.getD .null)

/-- The values listed under a name. -/
def listed (members : List (String × Json)) (name : String) : List Json :=
  (members.filter (·.1 = name)).map Prod.snd

/-- The fields in order as an array; or in any order as an object, each at most once, among any
members with other names. -/
inductive SpellsRecord (fields : Fields) : Json → Prop
  | array {items : List Json} : List.Forall₂ (fun field item => field.2 (some item)) fields items →
    SpellsRecord fields (.array items)
  | object {members : List (Text × Json)} {named : List (String × Json)} :
    List.Forall₂ (fun m n => m.1.string? = some n.1 ∧ m.2 = n.2) members named →
    (∀ field ∈ fields, ∃ value : Option Json,
      listed named field.1 = value.toList ∧ field.2 value) →
    SpellsRecord fields (.object members)

variable {fields : Fields} {members : List (Text × Json)} {named : List (String × Json)}

theorem named_eq_some_iff : Json.named members = some named ↔
    List.Forall₂ (fun m n => m.1.string? = some n.1 ∧ m.2 = n.2) members named := by
  have member (m : Text × Json) (n : String × Json) :
      (do return (← m.1.string?, m.2)) = some n ↔ m.1.string? = some n.1 ∧ m.2 = n.2 := by
    simp [Option.bind_eq_some_iff, Prod.ext_iff]
  unfold Json.named
  rw [mapM_eq_some_iff]
  simp only [member]

/-- What is listed under a name is one value or none, if it is listed at most once. -/
theorem listed_eq_toList_iff {value : Option Json} : listed named name = value.toList ↔
    (named.filter (·.1 = name)).length ≤ 1 ∧ (named.find? (·.1 = name)).map (·.2) = value := by
  unfold listed
  rw [← List.head?_filter]
  cases named.filter (·.1 = name) with
  | nil => cases value <;> simp
  | cons first more =>
    cases more with
    | nil => cases value <;> simp
    | cons second more => cases value <;> simp

theorem fields?_array_eq_some_iff {names : List String} {items : List Json}
    {values : List (Option Json)} : fields? names (.array items) = some values ↔
      items.length = names.length ∧ values = items.map some := by
  simp [fields?, eq_comm]

theorem fields?_object_eq_some_iff {names : List String} {values : List (Option Json)} :
    fields? names (.object members) = some values ↔ ∃ named, Json.named members = some named ∧
      List.Forall₂ (fun name value => listed named name = value.toList) names values := by
  refine Option.bind_eq_some_iff.trans (exists_congr fun named => and_congr_right fun _ => ?_)
  simp only [listed_eq_toList_iff, List.forall₂_and_left]
  rw [← List.forall₂_map_left_iff, List.forall₂_eq_eq_eq]
  simp

theorem spellsRecord_iff : SpellsRecord fields j ↔
    ∃ values, fields? (fields.map Prod.fst) j = some values ∧
      List.Forall₂ (fun field value => field.2 value) fields values := by
  constructor
  · rintro (⟨spelled⟩ | ⟨spelled, given⟩)
    · refine ⟨_, fields?_array_eq_some_iff.2 ⟨?_, rfl⟩, List.forall₂_map_right_iff.2 spelled⟩
      rw [List.length_map, spelled.length_eq]
    · choose! value listed holds using given
      refine ⟨fields.map value, fields?_object_eq_some_iff.2
        ⟨_, named_eq_some_iff.2 spelled, ?_⟩, ?_⟩
      · rw [List.forall₂_map_left_iff, List.forall₂_map_right_iff, List.forall₂_same]
        exact listed
      · rw [List.forall₂_map_right_iff, List.forall₂_same]
        exact holds
  · rintro ⟨values, read, holds⟩
    cases j with
    | array items =>
      obtain ⟨-, rfl⟩ := fields?_array_eq_some_iff.1 read
      exact .array (List.forall₂_map_right_iff.1 holds)
    | object members =>
      obtain ⟨named, names, given⟩ := fields?_object_eq_some_iff.1 read
      rw [List.forall₂_map_left_iff] at given
      refine .object (named_eq_some_iff.1 names) fun field mem => ?_
      obtain ⟨i, hi, rfl⟩ := List.getElem_of_mem mem
      have hv : i < values.length := holds.length_eq ▸ hi
      exact ⟨values.get ⟨i, hv⟩, given.get hi hv, holds.get hi hv⟩
    | null | bool | integer | real | string => cases read

/-- The members of an object spell a record in any order. -/
theorem SpellsRecord.of_perm {others : List (Text × Json)} (same : others.Perm members)
    (h : SpellsRecord fields (.object members)) : SpellsRecord fields (.object others) := by
  obtain _ | ⟨spelled, given⟩ := h
  obtain ⟨renamed, spelled, moved⟩ := List.perm_comp_forall₂ same spelled
  refine .object spelled fun field mem => ?_
  obtain ⟨value, one, holds⟩ := given field mem
  refine ⟨value, ?_, holds⟩
  have still : (listed renamed field.1).Perm value.toList := one ▸ (moved.filter _).map _
  cases value with
  | none => exact still.eq_nil
  | some => exact still.eq_singleton

/-- A member with another name makes no difference. -/
theorem SpellsRecord.with_other {text : Text} {value : Json} (read : text.string? = some name)
    (other : name ∉ fields.map Prod.fst) (h : SpellsRecord fields (.object members)) :
    SpellsRecord fields (.object ((text, value) :: members)) := by
  obtain _ | ⟨spelled, given⟩ := h
  refine .object (.cons (b := (name, value)) ⟨read, rfl⟩ spelled) fun field mem => ?_
  obtain ⟨value, one, holds⟩ := given field mem
  have apart : name ≠ field.1 := by
    rintro rfl
    exact other (List.mem_map_of_mem mem)
  refine ⟨value, ?_, holds⟩
  rw [listed, List.filter_cons_of_neg (by simpa using apart)]
  exact one

theorem listed_of_mem (different : (named.map Prod.fst).Nodup) {value : Json}
    (mem : (name, value) ∈ named) : listed named name = [value] := by
  unfold listed
  induction named with
  | nil => cases mem
  | cons entry named ih =>
    obtain ⟨fresh, rest⟩ := List.nodup_cons.1 different
    rcases List.mem_cons.1 mem with here | later
    · subst here
      have no_more : named.filter (·.1 = name) = [] := by
        refine List.filter_eq_nil_iff.2 fun other mem same => fresh ?_
        exact List.mem_map.2 ⟨other, mem, of_decide_eq_true same⟩
      rw [List.filter_cons_of_pos (by simp), no_more]
      rfl
    · have other : entry.1 ≠ name := by
        intro same
        exact fresh (List.mem_map.2 ⟨_, later, same.symm⟩)
      rw [List.filter_cons_of_neg (by simpa using other)]
      exact ih rest later

/-- A record is written as an object with its fields in order. -/
theorem spellsRecord_record {written : List (String × Json)}
    (different : (written.map Prod.fst).Nodup)
    (h : List.Forall₂ (fun field pair => field.1 = pair.1 ∧ field.2 (some pair.2)) fields written) :
    SpellsRecord fields (record written) := by
  have names : List.Forall₂ (fun (m : Text × Json) (n : String × Json) =>
      m.1.string? = some n.1 ∧ m.2 = n.2)
      (written.map fun f => (Text.ofString f.1, f.2)) written := by
    rw [List.forall₂_map_left_iff, List.forall₂_same]
    exact fun pair _ => ⟨Text.string?_ofString _, rfl⟩
  refine .object names fun field mem => ?_
  obtain ⟨i, hi, rfl⟩ := List.getElem_of_mem mem
  have hw : i < written.length := h.length_eq ▸ hi
  obtain ⟨name, holds⟩ := h.get hi hw
  refine ⟨some written[i].2, ?_, holds⟩
  exact listed_of_mem different (name ▸ List.getElem_mem hw)

/-- Reading a field and going on with its value. -/
theorem readField_eq_some_iff [JsonForm α] [Spelling α] [LawfulForm α] {field : Option Json}
    {build : α → Option β} {b : β} :
    (do
      let j ← field
      let a ← ofJson j
      build a) = some b ↔ ∃ a, Given (Spells a) field ∧ build a = some b := by
  constructor
  · intro h
    obtain ⟨j, given, h⟩ := Option.bind_eq_some_iff.1 h
    obtain ⟨a, read, h⟩ := Option.bind_eq_some_iff.1 h
    exact ⟨a, ⟨j, given, ofJson_eq_some_iff.1 read⟩, h⟩
  · rintro ⟨a, ⟨j, rfl, spells⟩, h⟩
    simpa [ofJson_eq_some_iff.2 spells] using h

/-- Reading a field that may be left out. -/
theorem readOptional_eq_some_iff [JsonForm α] [Spelling α] [LawfulForm α] {field : Option Json}
    {build : α → Option β} {b : β} :
    (do
      let a ← ofJson (field.getD .null)
      build a) = some b ↔ ∃ a, GivenOrNull (Spells a) field ∧ build a = some b := by
  refine Option.bind_eq_some_iff.trans ?_
  simp only [GivenOrNull, ofJson_eq_some_iff]

/-- A record is read from all its spellings once its fields are. -/
theorem readRecord_eq_some_iff {names : List String} {build : List (Option Json) → Option α}
    (same : fields.map Prod.fst = names)
    (h : ∀ values, build values = some a ↔
      List.Forall₂ (fun field value => field.2 value) fields values) :
    (do build (← fields? names j)) = some a ↔ SpellsRecord fields j := by
  rw [spellsRecord_iff, same]
  refine Option.bind_eq_some_iff.trans (exists_congr fun values => and_congr_right fun _ => ?_)
  exact h values

end Json

end OmniDrive
