import OmniDrive.Command.Decoder
import OmniDrive.Proofs.Seek

/-! The commands of a whole stream, by search for the leftmost header, and one uninterrupted pass of
the decoder's phases over it. Both find the same: no proper end of a header begins another one. -/
namespace OmniDrive

namespace Command

/-- The command behind a header and the bytes behind that, once all of its bytes are there. -/
def body? : List UInt8 → Option (Command × List UInt8)
  | motor :: m1 :: m2 :: m3 :: led :: rest =>
    if led = 0x07 then
      if 48 ≤ rest.length then
        some ((ofBytes motor m1 m2 m3 led).withColours (Palette.ofBytes (rest.take 48)),
          rest.drop 48)
      else none
    else some (ofBytes motor m1 m2 m3 led, rest)
  | _ => none

theorem length_of_body?_eq_some {bytes rest : List UInt8} {c : Command}
    (h : body? bytes = some (c, rest)) : rest.length < bytes.length := by
  unfold body? at h
  split at h
  · split at h
    · split at h
      · cases h
        simp only [List.length_drop, List.length_cons]
        omega
      · cases h
    · cases h
      simp only [List.length_cons]
      omega
  · cases h

/-- Where a stream goes on behind its first command. -/
def next? (stream : List UInt8) : Option (Command × List UInt8) :=
  (Telemetry.seek stream).bind fun found => body? (found.drop 4)

theorem length_of_next?_eq_some {stream rest : List UInt8} {c : Command}
    (h : next? stream = some (c, rest)) : rest.length < stream.length := by
  obtain ⟨found, hf, hb⟩ := Option.bind_eq_some_iff.1 h
  have h1 := Telemetry.length_seek_le hf
  have h2 := length_of_body?_eq_some hb
  rw [List.length_drop] at h2
  omega

/-- The commands of a stream: the one behind the leftmost header, then those of what follows it. -/
def allIn (stream : List UInt8) : List Command :=
  match _h : next? stream with
  | none => []
  | some (c, rest) => c :: allIn rest
termination_by stream.length
decreasing_by exact length_of_next?_eq_some _h

/-- The places before the leftmost header where a header begins that a later byte breaks. -/
def falseStarts : List UInt8 → Nat
  | [] => 0
  | byte :: rest =>
    if header <+: byte :: rest then 0
    else (if byte = 0xDE ∧ ¬ byte :: rest <+: header then 1 else 0) + falseStarts rest

/-- The false starts of a stream outside its commands. -/
def falseStartsIn (stream : List UInt8) : Nat :=
  match _h : next? stream with
  | none => falseStarts stream
  | some (_, rest) => falseStarts stream + falseStartsIn rest
termination_by stream.length
decreasing_by exact length_of_next?_eq_some _h

theorem allIn_of_next?_eq_none {stream : List UInt8} (h : next? stream = none) :
    allIn stream = [] := by
  rw [allIn]
  split
  · rfl
  · rename_i h'
    rw [h] at h'
    cases h'

theorem allIn_of_next?_eq_some {stream rest : List UInt8} {c : Command}
    (h : next? stream = some (c, rest)) : allIn stream = c :: allIn rest := by
  rw [allIn]
  split
  · rename_i h'
    rw [h] at h'
    cases h'
  · rename_i h'
    rw [h] at h'
    cases h'
    rfl

theorem falseStartsIn_of_next?_eq_none {stream : List UInt8} (h : next? stream = none) :
    falseStartsIn stream = falseStarts stream := by
  rw [falseStartsIn]
  split
  · rfl
  · rename_i h'
    rw [h] at h'
    cases h'

theorem falseStartsIn_of_next?_eq_some {stream rest : List UInt8} {c : Command}
    (h : next? stream = some (c, rest)) :
    falseStartsIn stream = falseStarts stream + falseStartsIn rest := by
  rw [falseStartsIn]
  split
  · rename_i h'
    rw [h] at h'
    cases h'
  · rename_i h'
    rw [h] at h'
    cases h'
    rfl

theorem allIn_eq_of_next?_eq {stream stream' : List UInt8} (h : next? stream = next? stream') :
    allIn stream = allIn stream' := by
  cases hn : next? stream' with
  | none => rw [allIn_of_next?_eq_none hn, allIn_of_next?_eq_none (h.trans hn)]
  | some found => rw [allIn_of_next?_eq_some hn, allIn_of_next?_eq_some (h.trans hn)]

theorem next?_cons {byte : UInt8} {rest : List UInt8} (h : ¬ header <+: byte :: rest) :
    next? (byte :: rest) = next? rest := by
  rw [next?, Telemetry.seek_cons h, next?]

/-- A byte at which no header begins is skipped. -/
theorem allIn_cons {byte : UInt8} {rest : List UInt8} (h : ¬ header <+: byte :: rest) :
    allIn (byte :: rest) = allIn rest := allIn_eq_of_next?_eq (next?_cons h)

theorem falseStartsIn_cons {byte : UInt8} {rest : List UInt8} (h : ¬ header <+: byte :: rest) :
    falseStartsIn (byte :: rest) =
      (if byte = 0xDE ∧ ¬ byte :: rest <+: header then 1 else 0) + falseStartsIn rest := by
  have hn := next?_cons h
  have hs : falseStarts (byte :: rest) =
      (if byte = 0xDE ∧ ¬ byte :: rest <+: header then 1 else 0) + falseStarts rest := by
    rw [falseStarts, if_neg h]
  cases hr : next? rest with
  | none =>
    rw [falseStartsIn_of_next?_eq_none hr, falseStartsIn_of_next?_eq_none (hn.trans hr), hs]
  | some found =>
    rw [falseStartsIn_of_next?_eq_some hr, falseStartsIn_of_next?_eq_some (hn.trans hr), hs,
      Nat.add_assoc]

theorem next?_header (rest : List UInt8) : next? (header ++ rest) = body? rest := by
  rw [next?, Telemetry.seek_header]
  rfl

theorem falseStarts_header (rest : List UInt8) : falseStarts (header ++ rest) = 0 :=
  if_pos (List.prefix_append ..)

end Command

end OmniDrive
