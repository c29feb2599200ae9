import OmniDrive.Proofs.Command.Frames

/-! One damaged byte in a stream of frames. Damage in a header hides a frame; damage behind one
changes a single field of one command, or makes it swallow the frames behind it as colours. In no
case do two fields of a command change. -/
namespace OmniDrive.Command

/-- A plain command of which neither mode speaks of an exit. -/
structure IsHarmless (c : Command) : Prop extends IsPlain c where
  motor_ne_exit : c.motorMode ≠ .exit
  light_ne_exit : c.lightMode ≠ .exit

instance (c : Command) : Decidable c.IsHarmless :=
  decidable_of_iff (c.IsPlain ∧ c.motorMode ≠ .exit ∧ c.lightMode ≠ .exit)
    ⟨fun h => ⟨h.1, h.2.1, h.2.2⟩, fun h => ⟨h.toIsPlain, h.motor_ne_exit, h.light_ne_exit⟩⟩

variable {c f : Command} {sent : List Command}

theorem not_exit_of_mem_bare (h : ∀ c ∈ sent, c.IsHarmless) (hf : f ∈ sent.map bare) :
    ¬ f.IsConfirmedExit := by
  obtain ⟨c, hc, rfl⟩ := List.mem_map.1 hf
  exact fun hx => (h c hc).motor_ne_exit hx.1

/-- Behind any five command bytes, be they a frame's own or not, only the command they carry is
found and frames that were sent. -/
theorem mem_allIn_body (h : ∀ c ∈ sent, c.IsPlain) (motor m1 m2 m3 led : UInt8)
    (hf : f ∈ allIn (header ++ motor :: m1 :: m2 :: m3 :: led :: sent.flatMap encode)) :
    f ∈ sent.map bare ∨ f.motorMode = .ofByte motor ∧ f.lightMode = .ofByte led := by
  have hn := next?_header (motor :: m1 :: m2 :: m3 :: led :: sent.flatMap encode)
  rw [body?] at hn
  split at hn
  · rename_i custom
    split at hn
    · rw [allIn_of_next?_eq_some hn, allIn_drop_frames h] at hf
      rcases List.mem_cons.1 hf with rfl | hf
      · rw [custom]
        exact .inr ⟨rfl, rfl⟩
      · exact .inl (List.map_subset bare (List.drop_subset ..) hf)
    · rw [allIn_of_next?_eq_none hn] at hf
      cases hf
  · rw [allIn_of_next?_eq_some hn, allIn_frames h] at hf
    rcases List.mem_cons.1 hf with rfl | hf
    · exact .inr ⟨rfl, rfl⟩
    · exact .inl hf

/-- Damage in the header of the first frame. -/
theorem mem_allIn_damaged_header (h : ∀ d ∈ c :: sent, d.IsPlain) (k : Fin 4) (value : UInt8)
    (hf : f ∈ allIn (c.encode.set k value ++ sent.flatMap encode)) : f ∈ (c :: sent).map bare := by
  have hc := h c List.mem_cons_self
  by_cases hv : value = header.get k
  · have same : c.encode.set k value = c.encode := by
      rw [hv, hc.encode_eq]
      match k with
      | 0 | 1 | 2 | 3 => rfl
    rw [same] at hf
    rwa [← allIn_frames h]
  · rw [allIn_noise (hc.not_header_infix_set k hv) fun d hd => h d (List.mem_cons_of_mem c hd)] at hf
    exact List.mem_cons_of_mem _ hf

/-- Damage behind the header of the first frame leaves one of its modes as it was. -/
theorem exists_damaged_body (h : c.IsPlain) {place : Nat} (behind : 4 ≤ place) (hp : place < 9)
    (value : UInt8) : ∃ motor m1 m2 m3 led,
      c.encode.set place value = header ++ [motor, m1, m2, m3, led] ∧
        (motor = c.motorMode.toByte ∨ led = c.lightMode.toByte) := by
  rw [h.encode_eq]
  match place, behind, hp with
  | 4, _, _ => exact ⟨_, _, _, _, _, rfl, .inr rfl⟩
  | 5, _, _ | 6, _, _ | 7, _, _ | 8, _, _ => exact ⟨_, _, _, _, _, rfl, .inl rfl⟩

theorem not_exit_of_damaged (h : ∀ d ∈ c :: sent, d.IsHarmless) {place : Nat} (hp : place < 9)
    (value : UInt8) (hf : f ∈ allIn (c.encode.set place value ++ sent.flatMap encode)) :
    ¬ f.IsConfirmedExit := by
  have hc := h c List.mem_cons_self
  have plain : ∀ d ∈ c :: sent, d.IsPlain := fun d hd => (h d hd).toIsPlain
  have hs : ∀ d ∈ sent, d.IsHarmless := fun d hd => h d (List.mem_cons_of_mem c hd)
  by_cases inHeader : place < 4
  · exact not_exit_of_mem_bare h (mem_allIn_damaged_header plain ⟨place, inHeader⟩ value hf)
  · obtain ⟨motor, m1, m2, m3, led, he, kept⟩ :=
      exists_damaged_body hc.toIsPlain (Nat.not_lt.1 inHeader) hp value
    rw [he, List.append_assoc] at hf
    rcases mem_allIn_body (fun d hd => (hs d hd).toIsPlain) motor m1 m2 m3 led hf with
      undamaged | ⟨hm, hl⟩
    · exact not_exit_of_mem_bare hs undamaged
    · rcases kept with rfl | rfl
      · rw [MotorMode.ofByte_toByte hc.motor] at hm
        exact fun hx => hc.motor_ne_exit (hm.symm.trans hx.1)
      · rw [LightMode.ofByte_toByte hc.light] at hl
        exact fun hx => hc.light_ne_exit (hl.symm.trans hx.2)

/-- No damage to a single byte makes an exit out of frames that speak of none. -/
theorem not_exit_of_mem_allIn_set (h : ∀ c ∈ sent, c.IsHarmless) (place : Nat) (value : UInt8)
    (hf : f ∈ allIn ((sent.flatMap encode).set place value)) : ¬ f.IsConfirmedExit := by
  induction sent generalizing place with
  | nil =>
    rw [List.flatMap_nil, List.set_nil, allIn_nil] at hf
    cases hf
  | cons c sent ih =>
    have hc := h c List.mem_cons_self
    have hs : ∀ d ∈ sent, d.IsHarmless := fun d hd => h d (List.mem_cons_of_mem c hd)
    rw [List.flatMap_cons, List.set_append, hc.length_encode] at hf
    split at hf
    · rename_i here
      exact not_exit_of_damaged h here value hf
    · rw [allIn_encode hc.toIsPlain] at hf
      rcases List.mem_cons.1 hf with rfl | hf
      · exact fun hx => hc.motor_ne_exit hx.1
      · exact ih hs _ hf

end OmniDrive.Command
