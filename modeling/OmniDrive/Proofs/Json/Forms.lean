import OmniDrive.Proofs.Json.Spelling

/-! How the values of the domain are spelled, type by type, and that every type reads exactly these
spellings. -/
namespace OmniDrive

open Json

/-! ### Numbers -/

namespace Json

variable {α : Type} {j : Json} {a : α}

theorem integer?_eq_some_iff {w : Word} {z : Int} :
    integer? w j = some z ↔ j = .integer z ∧ w.Holds z := by
  cases j with
  | integer n =>
    simp only [integer?, Json.integer.injEq]
    split
    · rename_i holds
      constructor
      · rintro ⟨⟩
        exact ⟨rfl, holds⟩
      · rintro ⟨rfl, -⟩
        rfl
    · rename_i wide
      refine iff_of_false nofun ?_
      rintro ⟨rfl, holds⟩
      exact wide holds
  | _ => simp [integer?]

theorem readInteger_eq_some_iff {w : Word} (read : Int → α) (value : α → Int)
    (exact : ∀ z, w.Holds z → value (read z) = z) (holds : ∀ a, w.Holds (value a))
    (back : ∀ a, read (value a) = a) :
    (do return read (← integer? w j)) = some a ↔ j = .integer (value a) := by
  refine Option.bind_eq_some_iff.trans ?_
  simp only [integer?_eq_some_iff]
  constructor
  · rintro ⟨z, ⟨rfl, h⟩, same⟩
    cases same
    rw [exact z h]
  · rintro rfl
    exact ⟨_, ⟨rfl, holds a⟩, congrArg some (back a)⟩

/-- A word without negative values, by its greatest one. -/
theorem readNat_eq_some_iff {size : Nat} (read : Nat → α) (value : α → Nat)
    (exact : ∀ n < size + 1, value (read n) = n) (holds : ∀ a, value a < size + 1)
    (back : ∀ a, read (value a) = a) :
    (do return read (← integer? ⟨0, size⟩ j).toNat) = some a ↔ j = .integer (value a) := by
  refine readInteger_eq_some_iff (fun z => read z.toNat) (fun a => value a) ?_ ?_ back
  · rintro z ⟨low, high⟩
    dsimp only at low high
    rw [exact _ (by omega)]
    omega
  · intro a
    have bound := holds a
    constructor
    · exact Int.natCast_nonneg _
    · dsimp only
      omega

end Json

instance : Spelling Bool := ⟨fun b j => j = .bool b⟩

instance : Spelling UInt8 := ⟨fun n j => j = .integer n.toNat⟩

instance : Spelling UInt16 := ⟨fun n j => j = .integer n.toNat⟩

instance : Spelling UInt32 := ⟨fun n j => j = .integer n.toNat⟩

instance : Spelling Int8 := ⟨fun z j => j = .integer z.toInt⟩

instance : LawfulForm Bool where
  ofJson_eq_some_iff {j b} := by
    cases j with
    | bool c => simp [ofJson, Spells]
    | _ => simp [ofJson, Spells]
  spells_toJson _ := rfl
  writes_toJson b := by
    cases b with
    | true => exact .yes
    | false => exact .no

instance : LawfulForm UInt8 where
  ofJson_eq_some_iff := readNat_eq_some_iff UInt8.ofNat UInt8.toNat
    (fun _ => UInt8.toNat_ofNat_of_lt') UInt8.toNat_lt fun _ => UInt8.ofNat_toNat
  spells_toJson _ := rfl
  writes_toJson _ := writes_integer _

instance : LawfulForm UInt16 where
  ofJson_eq_some_iff := readNat_eq_some_iff UInt16.ofNat UInt16.toNat
    (fun _ => UInt16.toNat_ofNat_of_lt') UInt16.toNat_lt fun _ => UInt16.ofNat_toNat
  spells_toJson _ := rfl
  writes_toJson _ := writes_integer _

instance : LawfulForm UInt32 where
  ofJson_eq_some_iff := readNat_eq_some_iff UInt32.ofNat UInt32.toNat
    (fun _ => UInt32.toNat_ofNat_of_lt') UInt32.toNat_lt fun _ => UInt32.ofNat_toNat
  spells_toJson _ := rfl
  writes_toJson _ := writes_integer _

instance : LawfulForm Int8 where
  ofJson_eq_some_iff := by
    refine readInteger_eq_some_iff Int8.ofInt Int8.toInt (fun z h => ?_) (fun n => ?_)
      fun n => Int8.ofInt_toInt n
    · obtain ⟨low, high⟩ := h
      exact Int8.toInt_ofInt_of_le low (Int.lt_add_one_of_le high)
    · exact ⟨n.le_toInt, Int.le_of_lt_add_one n.toInt_lt⟩
  spells_toJson _ := rfl
  writes_toJson _ := writes_integer _

/-! ### Collections -/

section Collections

variable {α : Type} [Spelling α] {n : Nat}

/-- The items of an array spell the values. -/
def SpellsAll (as : List α) (j : Json) : Prop :=
  ∃ items, j = .array items ∧ List.Forall₂ (fun item a => Spells a item) items as

instance : Spelling (Vector α n) := ⟨fun v => SpellsAll v.toList⟩

instance : Spelling (Wheels α) := ⟨fun w => SpellsAll w.toList⟩

/-- Null is no value. -/
instance : Spelling (Option α) where
  Spells
    | none, j => j = .null
    | some a, j => j ≠ .null ∧ Spells a j

variable [JsonForm α] [LawfulForm α]

theorem spellsAll_toJson (as : List α) : SpellsAll as (.array (as.map toJson)) := by
  refine ⟨_, rfl, ?_⟩
  rw [List.forall₂_map_left_iff, List.forall₂_same]
  exact fun a _ => spells_toJson a

theorem writes_all (as : List α) : Writes (.array (as.map toJson)) := by
  refine writes_array fun item mem => ?_
  obtain ⟨a, -, rfl⟩ := List.mem_map.1 mem
  exact writes_toJson a

theorem mapM_ofJson_eq_some_iff {items : List Json} {as : List α} :
    items.mapM ofJson = some as ↔ List.Forall₂ (fun item a => Spells a item) items as := by
  simp only [mapM_eq_some_iff, ofJson_eq_some_iff]

instance : LawfulForm (Vector α n) where
  ofJson_eq_some_iff {j v} := by
    constructor
    · intro h
      obtain ⟨items, hi, h⟩ := Option.bind_eq_some_iff.1 h
      obtain ⟨as, hm, h⟩ := Option.bind_eq_some_iff.1 h
      split at h
      · cases h
        cases j with
        | array =>
          cases hi
          exact ⟨items, rfl, mapM_ofJson_eq_some_iff.1 hm⟩
        | _ => cases hi
      · cases h
    · rintro ⟨items, rfl, spelled⟩
      have read := mapM_ofJson_eq_some_iff.2 spelled
      refine Option.bind_eq_some_iff.2 ⟨items, rfl, Option.bind_eq_some_iff.2 ⟨_, read, ?_⟩⟩
      rw [dif_pos v.length_toList]
      rfl
  spells_toJson v := spellsAll_toJson v.toList
  writes_toJson v := writes_all v.toList

instance : LawfulForm (Wheels α) where
  ofJson_eq_some_iff {j w} := by
    constructor
    · intro h
      cases j with
      | array items =>
        simp only [ofJson] at h
        split at h
        · rename_i a b c same
          obtain ⟨first, ha, h⟩ := Option.bind_eq_some_iff.1 h
          obtain ⟨second, hb, h⟩ := Option.bind_eq_some_iff.1 h
          obtain ⟨third, hc, h⟩ := Option.bind_eq_some_iff.1 h
          cases h
          cases same
          exact ⟨_, rfl, .cons (ofJson_eq_some_iff.1 ha) (.cons (ofJson_eq_some_iff.1 hb)
            (.cons (ofJson_eq_some_iff.1 hc) .nil))⟩
        · cases h
      | _ => cases h
    · rintro ⟨items, rfl, spelled⟩
      obtain ⟨a, b, c⟩ := w
      rcases spelled with _ | ⟨ha, _ | ⟨hb, _ | ⟨hc, ⟨⟩⟩⟩⟩
      simp [ofJson, ofJson_eq_some_iff.2 ha, ofJson_eq_some_iff.2 hb, ofJson_eq_some_iff.2 hc]
  spells_toJson w := spellsAll_toJson w.toList
  writes_toJson w := writes_all w.toList

theorem ofJson_option {β : Type} [JsonForm β] {j : Json} (h : j ≠ .null) :
    (ofJson j : Option (Option β)) = (ofJson j).map some := by
  cases j with
  | null => exact absurd rfl h
  | _ => exact Option.map_eq_bind.symm

theorem ofJson_option_eq_some_iff {j : Json} {o : Option α} : ofJson j = some o ↔ Spells o j := by
  by_cases null : j = .null
  · subst null
    cases o with
    | none => simp [ofJson, Spells]
    | some a => simp [ofJson, Spells]
  · rw [ofJson_option null]
    cases o with
    | none => simp [Spells, null]
    | some a => simp [Spells, null, ofJson_eq_some_iff]

instance : LawfulForm (Option (Vector α n)) where
  ofJson_eq_some_iff := ofJson_option_eq_some_iff
  spells_toJson
    | none => rfl
    | some v => ⟨nofun, spells_toJson v⟩
  writes_toJson
    | none => .null
    | some v => writes_toJson v

end Collections

/-! ### Cases -/

instance : Spelling MotorMode := ⟨SpellsCase "unknown" .unknown MotorMode.cases⟩

theorem MotorMode.written (mode : MotorMode) : Written "unknown" unknown cases mode := by
  cases mode with
  | unknown byte => exact .inl ⟨byte, rfl, rfl⟩
  | _ => exact .inr ⟨_, by simp [cases], rfl⟩

instance : LawfulForm MotorMode where
  ofJson_eq_some_iff := readCase_eq_some_iff (by decide) (by decide)
  spells_toJson mode := mode.written.spells
  writes_toJson mode := mode.written.writes (by decide) (by decide)

instance : Spelling LightMode := ⟨SpellsCase "unknown" .unknown LightMode.cases⟩

theorem LightMode.written (mode : LightMode) : Written "unknown" unknown cases mode := by
  cases mode with
  | unknown byte => exact .inl ⟨byte, rfl, rfl⟩
  | _ => exact .inr ⟨_, by simp [cases], rfl⟩

instance : LawfulForm LightMode where
  ofJson_eq_some_iff := readCase_eq_some_iff (by decide) (by decide)
  spells_toJson mode := mode.written.spells
  writes_toJson mode := mode.written.writes (by decide) (by decide)

/-- The cases of a session's health, none with contents. -/
def Health.cases : List (String × Health) := [("ok", .ok), ("cmd_stale", .cmdStale)]

instance : Spelling Health := ⟨SpellsListed Health.cases⟩

theorem Health.written (health : Health) : WrittenBare cases health := by
  cases health with
  | ok | cmdStale => exact ⟨_, by simp [cases], rfl⟩

instance : LawfulForm Health where
  ofJson_eq_some_iff := readListed_eq_some_iff (by decide)
  spells_toJson health := health.written.spells
  writes_toJson health := health.written.writes (by decide)

/-! ### Records -/

instance : Spelling Colour where
  Spells c := SpellsRecord
    [("r", Given (Spells c.r)), ("g", Given (Spells c.g)), ("b", Given (Spells c.b))]

instance : LawfulForm Colour where
  ofJson_eq_some_iff := by
    refine readRecord_eq_some_iff rfl fun values => ?_
    constructor
    · intro h
      split at h
      · simp only [readField_eq_some_iff] at h
        obtain ⟨_, hr, _, hg, _, hb, same⟩ := h
        cases same
        exact .cons hr (.cons hg (.cons hb .nil))
      · cases h
    · rintro (_ | ⟨hr, _ | ⟨hg, _ | ⟨hb, ⟨⟩⟩⟩⟩)
      simp only [readField_eq_some_iff]
      exact ⟨_, hr, _, hg, _, hb, rfl⟩
  spells_toJson c := spellsRecord_record (by simp) (by simp [Given, spells_toJson])
  writes_toJson c := writes_record ["r", "g", "b"] rfl (by decide) (by simp [writes_toJson])

instance : Spelling LightPattern := ⟨SpellsCase "custom" .custom LightPattern.cases⟩

theorem LightPattern.written (pattern : LightPattern) : Written "custom" custom cases pattern := by
  cases pattern with
  | custom colours => exact .inl ⟨colours, rfl, rfl⟩
  | _ => exact .inr ⟨_, by simp [cases], rfl⟩

instance : LawfulForm LightPattern where
  ofJson_eq_some_iff := readCase_eq_some_iff (by decide) (by decide)
  spells_toJson pattern := pattern.written.spells
  writes_toJson pattern := pattern.written.writes (by decide) (by decide)

/-- The colours may be left out. -/
instance : Spelling Command where
  Spells c := SpellsRecord [("motor_mode", Given (Spells c.motorMode)),
    ("led_mode", Given (Spells c.lightMode)), ("m1", Given (Spells c.m1)),
    ("m2", Given (Spells c.m2)), ("m3", Given (Spells c.m3)),
    ("leds", GivenOrNull (Spells c.colours))]

instance : LawfulForm Command where
  ofJson_eq_some_iff := by
    refine readRecord_eq_some_iff rfl fun values => ?_
    constructor
    · intro h
      split at h
      · simp only [readField_eq_some_iff, readOptional_eq_some_iff] at h
        obtain ⟨_, hm, _, hl, _, h1, _, h2, _, h3, _, hc, same⟩ := h
        cases same
        exact .cons hm (.cons hl (.cons h1 (.cons h2 (.cons h3 (.cons hc .nil)))))
      · cases h
    · rintro (_ | ⟨hm, _ | ⟨hl, _ | ⟨h1, _ | ⟨h2, _ | ⟨h3, _ | ⟨hc, ⟨⟩⟩⟩⟩⟩⟩⟩)
      simp only [readField_eq_some_iff, readOptional_eq_some_iff]
      exact ⟨_, hm, _, hl, _, h1, _, h2, _, h3, _, hc, rfl⟩
  spells_toJson c := spellsRecord_record (by simp) (by simp [Given, GivenOrNull, spells_toJson])
  writes_toJson c := writes_record ["motor_mode", "led_mode", "m1", "m2", "m3", "leds"] rfl
    (by decide) (by simp [writes_toJson])

instance : Spelling PowerReport where
  Spells p := SpellsRecord [("voltage", Given (Spells p.voltage)),
    ("charge_state", Given (Spells p.chargeState)), ("bat40", Given (Spells p.bat40)),
    ("bat160", Given (Spells p.bat160)), ("bat280", Given (Spells p.bat280))]

instance : LawfulForm PowerReport where
  ofJson_eq_some_iff := by
    refine readRecord_eq_some_iff rfl fun values => ?_
    constructor
    · intro h
      split at h
      · simp only [readField_eq_some_iff] at h
        obtain ⟨_, hv, _, hc, _, h1, _, h2, _, h3, same⟩ := h
        cases same
        exact .cons hv (.cons hc (.cons h1 (.cons h2 (.cons h3 .nil))))
      · cases h
    · rintro (_ | ⟨hv, _ | ⟨hc, _ | ⟨h1, _ | ⟨h2, _ | ⟨h3, ⟨⟩⟩⟩⟩⟩⟩)
      simp only [readField_eq_some_iff]
      exact ⟨_, hv, _, hc, _, h1, _, h2, _, h3, rfl⟩
  spells_toJson p := spellsRecord_record (by simp) (by simp [Given, spells_toJson])
  writes_toJson p := writes_record ["voltage", "charge_state", "bat40", "bat160", "bat280"] rfl
    (by decide) (by simp [writes_toJson])

instance : Spelling MotorReport where
  Spells m := SpellsRecord [("voltage", Given (Spells m.voltage)),
    ("clicks", Given (Spells m.clicks)), ("current", Given (Spells m.current)),
    ("temperature", Given (Spells m.temperature))]

instance : LawfulForm MotorReport where
  ofJson_eq_some_iff := by
    refine readRecord_eq_some_iff rfl fun values => ?_
    constructor
    · intro h
      split at h
      · simp only [readField_eq_some_iff] at h
        obtain ⟨_, hv, _, hk, _, hc, _, ht, same⟩ := h
        cases same
        exact .cons hv (.cons hk (.cons hc (.cons ht .nil)))
      · cases h
    · rintro (_ | ⟨hv, _ | ⟨hk, _ | ⟨hc, _ | ⟨ht, ⟨⟩⟩⟩⟩⟩)
      simp only [readField_eq_some_iff]
      exact ⟨_, hv, _, hk, _, hc, _, ht, rfl⟩
  spells_toJson m := spellsRecord_record (by simp) (by simp [Given, spells_toJson])
  writes_toJson m := writes_record ["voltage", "clicks", "current", "temperature"] rfl
    (by decide) (by simp [writes_toJson])

instance : Spelling SensorReport where
  Spells s := SpellsRecord [("accel", Given (Spells s.accel)), ("mag", Given (Spells s.mag)),
    ("gyro", Given (Spells s.gyro)), ("ir_distance", Given (Spells s.irDistance)),
    ("light", Given (Spells s.light)), ("thermal", Given (Spells s.thermal)),
    ("ir_light", Given (Spells s.irLight))]

instance : LawfulForm SensorReport where
  ofJson_eq_some_iff := by
    refine readRecord_eq_some_iff rfl fun values => ?_
    constructor
    · intro h
      split at h
      · simp only [readField_eq_some_iff] at h
        obtain ⟨_, ha, _, hm, _, hg, _, hd, _, hl, _, ht, _, hi, same⟩ := h
        cases same
        exact .cons ha (.cons hm (.cons hg (.cons hd (.cons hl (.cons ht (.cons hi .nil))))))
      · cases h
    · rintro (_ | ⟨ha, _ | ⟨hm, _ | ⟨hg, _ | ⟨hd, _ | ⟨hl, _ | ⟨ht, _ | ⟨hi, ⟨⟩⟩⟩⟩⟩⟩⟩⟩)
      simp only [readField_eq_some_iff]
      exact ⟨_, ha, _, hm, _, hg, _, hd, _, hl, _, ht, _, hi, rfl⟩
  spells_toJson s := spellsRecord_record (by simp) (by simp [Given, spells_toJson])
  writes_toJson s := writes_record
    ["accel", "mag", "gyro", "ir_distance", "light", "thermal", "ir_light"] rfl (by decide)
    (by simp [writes_toJson])

instance : Spelling StatusBits where
  Spells s := SpellsRecord [("charging_enabled", Given (Spells s.chargingEnabled)),
    ("drive_enabled", Given (Spells s.driveEnabled)), ("monitor_ok", Given (Spells s.monitorOk))]

instance : LawfulForm StatusBits where
  ofJson_eq_some_iff := by
    refine readRecord_eq_some_iff rfl fun values => ?_
    constructor
    · intro h
      split at h
      · simp only [readField_eq_some_iff] at h
        obtain ⟨_, hc, _, hd, _, hm, same⟩ := h
        cases same
        exact .cons hc (.cons hd (.cons hm .nil))
      · cases h
    · rintro (_ | ⟨hc, _ | ⟨hd, _ | ⟨hm, ⟨⟩⟩⟩⟩)
      simp only [readField_eq_some_iff]
      exact ⟨_, hc, _, hd, _, hm, rfl⟩
  spells_toJson s := spellsRecord_record (by simp) (by simp [Given, spells_toJson])
  writes_toJson s := writes_record ["charging_enabled", "drive_enabled", "monitor_ok"] rfl
    (by decide) (by simp [writes_toJson])

instance : Spelling Report where
  Spells r := SpellsRecord [("power", Given (Spells r.power)), ("motors", Given (Spells r.motors)),
    ("sensors", Given (Spells r.sensors)), ("error_flags", Given (Spells r.errorFlags)),
    ("command_read", Given (Spells r.commandRead)), ("status", Given (Spells r.status))]

instance : LawfulForm Report where
  ofJson_eq_some_iff := by
    refine readRecord_eq_some_iff rfl fun values => ?_
    constructor
    · intro h
      split at h
      · simp only [readField_eq_some_iff] at h
        obtain ⟨_, hp, _, hm, _, hs, _, he, _, hc, _, ht, same⟩ := h
        cases same
        exact .cons hp (.cons hm (.cons hs (.cons he (.cons hc (.cons ht .nil)))))
      · cases h
    · rintro (_ | ⟨hp, _ | ⟨hm, _ | ⟨hs, _ | ⟨he, _ | ⟨hc, _ | ⟨ht, ⟨⟩⟩⟩⟩⟩⟩⟩)
      simp only [readField_eq_some_iff]
      exact ⟨_, hp, _, hm, _, hs, _, he, _, hc, _, ht, rfl⟩
  spells_toJson r := spellsRecord_record (by simp) (by simp [Given, spells_toJson])
  writes_toJson r := writes_record
    ["power", "motors", "sensors", "error_flags", "command_read", "status"] rfl (by decide)
    (by simp [writes_toJson])

end OmniDrive
