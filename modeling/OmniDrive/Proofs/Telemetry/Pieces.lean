import OmniDrive.Proofs.Seek
import OmniDrive.Proofs.Telemetry.Corruption

/-! A telemetry stream in pieces. What a piece leaves over is all that the next one needs of it, so
the pieces give what the whole stream gives. -/
namespace OmniDrive.Telemetry

variable {input found : List UInt8} {report : Report} {reason : Error}

theorem header_prefix_of_decode (h : decode (input.take frameLength) = .ok report) :
    OmniDrive.header <+: input := by
  have hp : OmniDrive.header <+: input.take frameLength :=
    List.prefix_iff_eq_take.2 (decode_inv h).2.1.symm
  exact hp.trans <| List.take_prefix ..

theorem frameLength_le_of_decode (h : decode (input.take frameLength) = .ok report) :
    frameLength ≤ input.length := by
  have hl := (decode_inv h).1
  rw [List.length_take] at hl
  omega

theorem split_of_seek_eq_none (h : seek input = none) :
    split input = ⟨[], [], input.drop (input.length - 3)⟩ := by
  rw [split]
  split
  · rfl
  · rename_i hs
    cases h.symm.trans hs

theorem split_of_seek_eq_some (h : seek input = some found) : split input =
    if found.length < frameLength then ⟨[], [], found⟩
    else
      match decode (found.take frameLength) with
      | .ok report =>
        { split (found.drop frameLength) with
          reports := report :: (split (found.drop frameLength)).reports }
      | .error reason =>
        { split (found.drop 1) with
          refused := reason :: (split (found.drop 1)).refused } := by
  rw [split]
  split
  · rename_i hs
    cases h.symm.trans hs
  · rename_i hs
    cases h.symm.trans hs
    rfl

/-- Only what is found decides. -/
theorem split_found (h : seek input = some found) : split input = split found := by
  obtain ⟨-, -, hp, -⟩ := exists_drop_of_seek_eq_some h
  rw [split_of_seek_eq_some h, split_of_seek_eq_some (seek_eq_self hp)]

theorem split_short (hp : OmniDrive.header <+: input) (hl : input.length < frameLength) :
    split input = ⟨[], [], input⟩ := by
  rw [split_of_seek_eq_some (seek_eq_self hp), if_pos hl]

theorem split_accepted (h : decode (input.take frameLength) = .ok report) : split input =
    { split (input.drop frameLength) with
      reports := report :: (split (input.drop frameLength)).reports } := by
  rw [split_of_seek_eq_some (seek_eq_self (header_prefix_of_decode h)),
    if_neg (Nat.not_lt.2 (frameLength_le_of_decode h)), h]

theorem split_refused (hp : OmniDrive.header <+: input) (hl : frameLength ≤ input.length)
    (h : decode (input.take frameLength) = .error reason) : split input =
    { split (input.drop 1) with
      refused := reason :: (split (input.drop 1)).refused } := by
  rw [split_of_seek_eq_some (seek_eq_self hp), if_neg (Nat.not_lt.2 hl), h]

/-- Bytes at which no header begins make no difference, save the last three. -/
theorem split_drop {n : Nat} (hn : n ≤ input.length - 3)
    (h : ∀ j < n, ¬ OmniDrive.header <+: input.drop j) : split (input.drop n) = split input := by
  cases hs : seek input with
  | some found => rw [split_found hs, split_found ((seek_drop h).trans hs)]
  | none =>
    rw [split_of_seek_eq_none hs, split_of_seek_eq_none ((seek_drop h).trans hs), List.drop_drop,
      List.length_drop, show n + (input.length - n - 3) = input.length - 3 by omega]

/-- What two stretches held, the second of which starts with the rest of the first. -/
def Split.and (first later : Split) : Split :=
  ⟨first.reports ++ later.reports, first.refused ++ later.refused, later.rest⟩

theorem Split.nothing_and (rest : List UInt8) (later : Split) :
    (Split.mk [] [] rest).and later = later := rfl

/-- A stretch is split like its front and then, with what that leaves over, its back. -/
theorem split_append (front back : List UInt8) :
    split (front ++ back) = (split front).and (split ((split front).rest ++ back)) := by
  induction front using split.induct with
  | case1 front hs =>
    -- A header may begin in the last three bytes of `front` and end in `back`.
    have hd : (front ++ back).drop (front.length - 3) = front.drop (front.length - 3) ++ back :=
      List.drop_append_of_le_length (Nat.sub_le ..)
    rw [split_of_seek_eq_none hs, Split.nothing_and, ← hd, split_drop]
    · rw [List.length_append]
      omega
    · intro j hj hp
      rw [List.drop_append_of_le_length (by omega)] at hp
      have hl : 4 ≤ (front.drop j).length := by
        rw [List.length_drop]
        omega
      refine seek_eq_none_iff.1 hs ?_
      exact (header_prefix_of_append hl hp).isInfix.trans (List.drop_suffix j front).isInfix
  | case2 front found hs hl =>
    obtain ⟨-, -, hp, -⟩ := exists_drop_of_seek_eq_some hs
    rw [split_found hs, split_found (seek_append hs back), split_short hp hl, Split.nothing_and]
  | case3 front found hs hl report hd ih =>
    have hle := Nat.le_of_not_lt hl
    have hd' : decode ((found ++ back).take frameLength) = .ok report := by
      rwa [List.take_append_of_le_length hle]
    rw [split_found hs, split_found (seek_append hs back), split_accepted hd, split_accepted hd',
      List.drop_append_of_le_length hle, ih]
    rfl
  | case4 front found hs hl reason hd ih =>
    have hle := Nat.le_of_not_lt hl
    obtain ⟨-, -, hp, -⟩ := exists_drop_of_seek_eq_some hs
    have hd' : decode ((found ++ back).take frameLength) = .error reason := by
      rwa [List.take_append_of_le_length hle]
    have hle' : frameLength ≤ (found ++ back).length := by
      rw [List.length_append]
      omega
    rw [split_found hs, split_found (seek_append hs back), split_refused hp hle hd,
      split_refused (hp.trans (List.prefix_append ..)) hle' hd',
      List.drop_append_of_le_length (Nat.le_trans (by decide) hle), ih]
    rfl

theorem length_rest_lt (input : List UInt8) : (split input).rest.length < frameLength := by
  induction input using split.induct with
  | case1 input hs =>
    rw [split_of_seek_eq_none hs, List.length_drop]
    change _ < 83
    omega
  | case2 input found hs hl =>
    obtain ⟨-, -, hp, -⟩ := exists_drop_of_seek_eq_some hs
    rwa [split_found hs, split_short hp hl]
  | case3 input found hs hl report hd ih =>
    rwa [split_found hs, split_accepted hd]
  | case4 input found hs hl reason hd ih =>
    obtain ⟨-, -, hp, -⟩ := exists_drop_of_seek_eq_some hs
    rwa [split_found hs, split_refused hp (Nat.le_of_not_lt hl) hd]

namespace Stream

/-- Push pieces in order. -/
def pushAll (s : Telemetry.Stream) : List (List UInt8) → Telemetry.Stream × List Split
  | [] => (s, [])
  | bytes :: later =>
    let (next, result) := s.push bytes
    let (last, results) := next.pushAll later
    (last, result :: results)

/-- From where a stretch has left the stream, pieces lead to where they lead behind the stretch. -/
theorem pushAll_split (past : List UInt8) (pieces : List (List UInt8)) :
    (pushAll ⟨(split past).rest⟩ pieces).1 = ⟨(split (past ++ pieces.flatten)).rest⟩ ∧
      (split past).reports ++ (pushAll ⟨(split past).rest⟩ pieces).2.flatMap Split.reports =
        (split (past ++ pieces.flatten)).reports := by
  induction pieces generalizing past with
  | nil =>
    rw [List.flatten_nil, List.append_nil]
    exact ⟨rfl, List.append_nil _⟩
  | cons bytes later ih =>
    have hs := split_append past bytes
    have hr : (split (past ++ bytes)).rest = (split ((split past).rest ++ bytes)).rest := by
      rw [hs]
      rfl
    obtain ⟨held, reports⟩ := ih (past ++ bytes)
    rw [List.append_assoc, ← List.flatten_cons, hr] at held reports
    refine ⟨held, ?_⟩
    rw [← reports, hs]
    exact (List.append_assoc ..).symm

/-- Pieces leave over what the whole stream leaves over, and give the same reports. -/
theorem pushAll_flatten (pieces : List (List UInt8)) :
    (initial.pushAll pieces).1 = (initial.push pieces.flatten).1 ∧
      (initial.pushAll pieces).2.flatMap Split.reports =
        (initial.push pieces.flatten).2.reports := by
  have hs : split [] = ⟨[], [], []⟩ := split_of_seek_eq_none rfl
  have h := pushAll_split [] pieces
  rwa [hs] at h

end Stream

end OmniDrive.Telemetry
