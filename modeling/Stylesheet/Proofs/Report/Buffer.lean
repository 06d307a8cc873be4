import Stylesheet.Proofs.Evaluation.Script

/-!
# Streams into a buffer

A buffer takes bytes as long as it has room for them, and may take a part of what is written to it.
It does not matter to a buffer in how many pieces a diagnostic is written
(`Buffered.channelInPieces_eq`).
-/

namespace Stylesheet

variable {σ : Type}

/-! ## Writing in pieces -/

/-- The pieces in which a diagnostic is written line by line. -/
def Diagnostic.lineTexts : Diagnostic → List String
  | .warn message options =>
    let label := if options.deprecation then "DEPRECATION WARNING" else "WARNING"
    let origin := options.span.toList.map fun span => indented s!"at {span}"
    let stack := options.stack.toList.flatMap fun stack => (Text.lines stack).map indented
    s!"{label}: {message}\n" :: (origin ++ stack ++ ["\n"])
  | .debug message options => [s!"{options.span} DEBUG: {message}\n"]

theorem Diagnostic.join_lineTexts (diagnostic : Diagnostic) :
    String.join diagnostic.lineTexts = diagnostic.render := by
  cases diagnostic with
  | debug message options => simp [lineTexts, render]
  | warn message options =>
    cases hspan : options.span <;> cases hstack : options.stack <;>
      simp [lineTexts, render, hspan, hstack, String.append_assoc]

/-- The default channel that writes a diagnostic in pieces, one after another. -/
def ByteStream.channelInPieces (stream : ByteStream σ)
    (pieces : Diagnostic → List (List UInt8)) : DefaultChannel σ := fun diagnostic => do
  (pieces diagnostic).forM stream.write
  stream.flush

theorem Text.Utf8.encode_append (s t : String) : encode (s ++ t) = encode s ++ encode t := by
  simp [encode]

theorem Diagnostic.flatten_lineTexts (diagnostic : Diagnostic) :
    (diagnostic.lineTexts.map Text.Utf8.encode).flatten =
      Text.Utf8.encode diagnostic.render := by
  rw [← join_lineTexts]
  induction diagnostic.lineTexts with
  | nil => rfl
  | cons text texts ih =>
    rw [List.map_cons, List.flatten_cons, ih, String.join_cons, Text.Utf8.encode_append]

/-! ## Buffers -/

/-- The state of a host next to the bytes that its stream has taken. -/
structure Buffered (σ : Type) where
  host : σ
  taken : List UInt8 := []

namespace Buffered

/-- Lets the host act, which leaves the buffer alone. -/
def forward {ε α : Type} (act : HostM ε σ α) : HostM ε (Buffered σ) α := fun b =>
  match act b.host with
  | .ok a host => .ok a { b with host := host }
  | .error error host => .error error { b with host := host }

/-- The bytes that a buffer of a capacity takes of what is written to it. -/
def room (capacity : Option Nat) (bytes : List UInt8) (b : Buffered σ) : Nat :=
  capacity.elim bytes.length (· - b.taken.length)

/-- The stream into a buffer, of which the capacity counts the bytes that it takes in all. It takes
what still fits and fails at the first byte that does not. -/
def stream (capacity : Option Nat) (error : IoError) : ByteStream (Buffered σ) where
  write bytes b :=
    let after : Buffered σ := { b with taken := b.taken ++ bytes.take (b.room capacity bytes) }
    if b.room capacity bytes < bytes.length then .error error after else .ok () after
  flush b := .ok () b

@[simp] theorem room_none (bytes : List UInt8) (b : Buffered σ) :
    b.room none bytes = bytes.length := rfl

@[simp] theorem room_some (capacity : Nat) (bytes : List UInt8) (b : Buffered σ) :
    b.room (some capacity) bytes = capacity - b.taken.length := rfl

variable {capacity : Option Nat} {error : IoError} {b : Buffered σ} {bytes more : List UInt8}

theorem write_of_fits (h : bytes.length ≤ b.room capacity bytes) :
    (stream capacity error).write bytes b = .ok () { b with taken := b.taken ++ bytes } := by
  simp only [stream, if_neg (Nat.not_lt.mpr h), List.take_of_length_le h]

theorem write_of_lacks (h : b.room capacity bytes < bytes.length) :
    (stream capacity error).write bytes b =
      .error error { b with taken := b.taken ++ bytes.take (b.room capacity bytes) } := by
  simp only [stream, if_pos h]

theorem write_nil : (stream capacity error).write [] b = .ok () b := by
  rw [write_of_fits (Nat.zero_le _), List.append_nil]

/-- A buffer cannot tell two writes from one. -/
theorem write_append :
    (stream capacity error).write (bytes ++ more) b =
      ((stream capacity error).write bytes >>= fun _ => (stream capacity error).write more) b := by
  cases capacity with
  | none =>
    rw [write_of_fits (by simp), bind_of_ok (write_of_fits (by simp)), write_of_fits (by simp),
      List.append_assoc]
  | some capacity =>
    by_cases hfirst : bytes.length ≤ capacity - b.taken.length
    · rw [bind_of_ok (write_of_fits (by simpa using hfirst))]
      by_cases hmore : more.length ≤ capacity - (b.taken.length + bytes.length)
      · rw [write_of_fits (by simp; omega), write_of_fits (by simpa using hmore),
          List.append_assoc]
      · rw [write_of_lacks (by simp; omega), write_of_lacks (by simp; omega)]
        simp [List.take_append, List.take_of_length_le hfirst, Nat.sub_sub]
    · have hnone : capacity - b.taken.length - bytes.length = 0 := by omega
      rw [bind_of_error (write_of_lacks (by simp; omega)), write_of_lacks (by simp; omega)]
      simp [List.take_append, hnone]

theorem forM_write (pieces : List (List UInt8)) :
    pieces.forM (stream (σ := σ) capacity error).write =
      (stream capacity error).write pieces.flatten := by
  induction pieces with
  | nil =>
    funext b
    exact write_nil.symm
  | cons piece pieces ih =>
    funext b
    rw [List.flatten_cons, write_append, ← ih]
    rfl

/-- A buffer cannot tell whether a text is written to it in pieces. -/
theorem channelInPieces_eq {pieces : Diagnostic → List (List UInt8)}
    (h : ∀ diagnostic, (pieces diagnostic).flatten = Text.Utf8.encode diagnostic.render) :
    (stream (σ := σ) capacity error).channelInPieces pieces = (stream capacity error).channel := by
  funext diagnostic
  rw [ByteStream.channelInPieces, forM_write, h]
  rfl

theorem channel_of_fits {diagnostic : Diagnostic}
    (h : (Text.Utf8.encode diagnostic.render).length ≤
      b.room capacity (Text.Utf8.encode diagnostic.render)) :
    (stream capacity error).channel diagnostic b =
      .ok () { b with taken := b.taken ++ Text.Utf8.encode diagnostic.render } :=
  bind_of_ok (write_of_fits h)

theorem channel_of_lacks {diagnostic : Diagnostic}
    (h : b.room capacity (Text.Utf8.encode diagnostic.render) <
      (Text.Utf8.encode diagnostic.render).length) :
    let bytes := Text.Utf8.encode diagnostic.render
    (stream capacity error).channel diagnostic b =
      .error error { b with taken := b.taken ++ bytes.take (b.room capacity bytes) } :=
  bind_of_error (write_of_lacks h)

end Buffered

end Stylesheet
