import OmniDrive.Act
import OmniDrive.Notice

/-! The command decoder: finds commands in a stream of bytes that comes in pieces.
A phase consumes its bytes only once all of them are there, so the unconsumed rest of a piece is
handed in again in front of the next one. -/
namespace OmniDrive

namespace Decoder

/-- Position within a command. -/
inductive Phase
  /-- Some of the four header bytes have been seen. -/
  | header (matched : Fin 4)
  /-- The header is complete; five command bytes are awaited. -/
  | command
  /-- The command is read; its sixteen colours are awaited. -/
  | lights (pending : Command)
  deriving DecidableEq, Repr

namespace Phase

/-- The bytes that the phase takes at once. -/
def needed : Phase → Nat
  | header _ => 1
  | command => 5
  | lights _ => 48

theorem needed_pos (p : Phase) : 0 < p.needed := by
  cases p <;> simp [needed]

theorem needed_le (p : Phase) : p.needed ≤ 48 := by
  cases p <;> simp [needed]

end Phase

structure Step where
  next : Phase
  command : Option Command
  /-- A partly matched header was given up. -/
  desync : Bool
  deriving DecidableEq, Repr

namespace Phase

/-- A header byte. The byte that breaks a header may itself be the first of the next one. -/
def matchHeader (matched : Fin 4) (byte : UInt8) : Step :=
  match matched with
  | 0 => ⟨.header (if byte = 0xDE then 1 else 0), none, false⟩
  | 1 => if byte = 0xAD then ⟨.header 2, none, false⟩ else broken byte
  | 2 => if byte = 0xBE then ⟨.header 3, none, false⟩ else broken byte
  | 3 => if byte = 0xEF then ⟨.command, none, false⟩ else broken byte
where
  broken (byte : UInt8) : Step := ⟨.header (if byte = 0xDE then 1 else 0), none, true⟩

/-- A command is complete unless colours follow. -/
def finishCommand (c : Command) : Step :=
  if c.lightMode = .custom then ⟨.lights c, none, false⟩ else ⟨.header 0, some c, false⟩

/-- Take one chunk, which must have exactly the length that the phase needs. -/
def step (p : Phase) (chunk : List UInt8) : Except Fault Step :=
  match p, chunk with
  | header matched, [byte] => .ok (matchHeader matched byte)
  | command, [motor, m1, m2, m3, led] => .ok (finishCommand (.ofBytes motor m1 m2 m3 led))
  | lights pending, colours =>
    if colours.length = 48 then
      .ok ⟨.header 0, some { pending with colours := some (Palette.ofBytes colours) }, false⟩
    else .error .chunkLength
  | _, _ => .error .chunkLength

/-- A chunk of the needed length is always taken. -/
theorem exists_step_eq_ok {p : Phase} {chunk : List UInt8} (h : chunk.length = p.needed) :
    ∃ s, p.step chunk = .ok s := by
  match p, chunk, h with
  | .header _, [_], _ => exact ⟨_, rfl⟩
  | .command, [_, _, _, _, _], _ => exact ⟨_, rfl⟩
  | .lights _, _, h => exact ⟨_, if_pos h⟩

end Phase

end Decoder

/-- A command decoder between two pieces of input. -/
structure Decoder where
  phase : Decoder.Phase
  /-- The most bytes one call consumes. -/
  limit : Nat
  /-- Partly matched headers given up so far. -/
  desyncs : Nat
  deriving DecidableEq, Repr

namespace Decoder

def usualLimit : Nat := 1024

/-- A decoder that consumes at most `limit` bytes a call, but at least one block of colours. -/
def ofLimit (limit : Nat) : Decoder := ⟨.header 0, max limit 48, 0⟩

def fresh : Decoder := ofLimit usualLimit

structure Decoded where
  /-- The last command completed in the call; earlier ones are overwritten. -/
  command : Option Command
  /-- The bytes to drop from the front of the input. -/
  consumed : Nat
  deriving DecidableEq, Repr

def advance (d : Decoder) (s : Step) : Decoder :=
  { d with phase := s.next, desyncs := d.desyncs + s.desync.toNat }

/-- What a step reports, given the position behind its chunk. -/
def notices (s : Step) (position : Nat) : List Notice :=
  (if s.desync then [.headerDesync (position - 1)] else [])
    ++ (s.command.map Notice.commandDecoded).toList

/-- Go on with the `rest` of the input, of which `consumed` bytes are done and `found` was the last
command, until the rest is too short for the phase or the limit forbids its chunk. -/
def decodeFrom (d : Decoder) (consumed : Nat) (found : Option Command) (rest : List UInt8) :
    Act Notice (Decoder × Decoded) :=
  let chunk := rest.take d.phase.needed
  if chunk.length < d.phase.needed ∨ d.limit < consumed + d.phase.needed then
    pure (d, ⟨found, consumed⟩)
  else do
    let s ← (d.phase.step chunk : Except Fault Step)
    let position := consumed + d.phase.needed
    Act.done (notices s position) ()
    decodeFrom (d.advance s) position (s.command <|> found) (rest.drop d.phase.needed)
termination_by rest.length
decreasing_by
  rename_i enough
  have := d.phase.needed_pos
  simp only [chunk, List.length_take] at enough
  simp only [List.length_drop]
  omega

/-- Decode as much of the input as whole phases and the limit allow. -/
def decode (d : Decoder) (input : List UInt8) : Act Notice (Decoder × Decoded) :=
  d.decodeFrom 0 none input

end Decoder

end OmniDrive
