import StackMachine.Image.Lines

/-! The lines read through the buffer are the pieces of a text between its newlines, up to one that is too long. -/

namespace StackMachine.Lines

/-- A list of pieces without the empty one that it may end in. -/
def withoutEmptyEnd (pieces : List Bytes) : List Bytes :=
  if pieces.getLast? = some [] then pieces.dropLast else pieces

/-- The pieces of a text that end in a newline, and what is left behind the last newline, if anything is. -/
def pieces (text : Bytes) : List Bytes :=
  withoutEmptyEnd (text.splitOn Bytes.newline)

/-- A piece without the carriage return that it may end in. -/
def withoutReturn (piece : Bytes) : Bytes :=
  if piece.getLast? = some Bytes.carriageReturn then piece.dropLast else piece

/-- Whether a piece fits the buffer together with a newline. -/
def fits (piece : Bytes) : Bool :=
  piece.length + 1 ≤ bufferSize

/-- The lines of some pieces: those before the first that does not fit, without their carriage returns. -/
def ofPieces (pieces : List Bytes) : Lines :=
  ⟨(pieces.takeWhile fits).map withoutReturn, !pieces.all fits⟩

/-- A line that is kept backwards is turned round at its end, and loses its carriage return there. -/
theorem finish_eq (backwards : Bytes) : finish backwards = withoutReturn backwards.reverse := by
  cases backwards with
  | nil => rfl
  | cons byte rest => simp [finish, withoutReturn]

/-- Only the last piece can be dropped for being empty, so that every other one stays in front. -/
theorem withoutEmptyEnd_cons (piece : Bytes) {later : List Bytes} (more : later ≠ []) :
    withoutEmptyEnd (piece :: later) = piece :: withoutEmptyEnd later := by
  obtain ⟨next, rest, rfl⟩ := List.exists_cons_of_ne_nil more
  unfold withoutEmptyEnd
  rw [List.getLast?_cons_cons, List.dropLast_cons_of_ne_nil more]
  split <;> rfl

/-- A piece with something in it stays, whether it is the last one or not. -/
theorem withoutEmptyEnd_head {piece : Bytes} (filled : piece ≠ []) (later : List Bytes) :
    ∃ rest, withoutEmptyEnd (piece :: later) = piece :: rest := by
  cases later with
  | nil => exact ⟨[], by simp [withoutEmptyEnd, filled]⟩
  | cons next rest => exact ⟨_, withoutEmptyEnd_cons piece (List.cons_ne_nil next rest)⟩

/-- A piece that fits gives a line, and the lines of the later pieces follow it. -/
theorem ofPieces_cons {piece : Bytes} (short : fits piece) (later : List Bytes) :
    ofPieces (piece :: later) =
      ⟨withoutReturn piece :: (ofPieces later).lines, (ofPieces later).overlong⟩ := by
  simp [ofPieces, short]

/-- A piece that does not fit gives no line, and neither do the pieces behind it. -/
theorem ofPieces_overlong {piece : Bytes} (long : ¬ fits piece) (later : List Bytes) :
    ofPieces (piece :: later) = ⟨[], true⟩ := by
  simp [ofPieces, long]

/-- Nothing in front of the first piece leaves the pieces as they are. -/
theorem modifyHead_nothing (pieces : List Bytes) : pieces.modifyHead (([] : Bytes).reverse ++ ·) = pieces := by
  cases pieces <;> rfl

/--
Splitting behind the start of a line goes on with the pieces of the text, the first of which completes that line.

The bytes of the line so far are fewer than the buffer holds.
-/
theorem splitFrom_eq (text current : Bytes) (done : List Bytes) (room : current.length < bufferSize) :
    let later := ofPieces (withoutEmptyEnd ((text.splitOn Bytes.newline).modifyHead (current.reverse ++ ·)))
    splitFrom current.length current done text = ⟨done.reverse ++ later.lines, later.overlong⟩ := by
  have short : fits current.reverse := decide_eq_true (by rw [List.length_reverse]; exact room)
  induction text generalizing current done with
  | nil =>
    -- The rest of the text counts as a line unless there is nothing in it.
    cases current with
    | nil => simp [splitFrom, withoutEmptyEnd, ofPieces]
    | cons byte before =>
      have kept : withoutEmptyEnd [(byte :: before).reverse] = [(byte :: before).reverse] := by
        simp [withoutEmptyEnd]
      have counted : (byte :: before).length ≠ 0 := Nat.succ_ne_zero _
      simp only [splitFrom, if_neg counted, List.splitOn_nil, List.modifyHead_cons, List.append_nil, kept]
      rw [ofPieces_cons short, finish_eq, List.reverse_cons]
      rfl
  | cons byte rest ih =>
    have more := List.splitOn_ne_nil Bytes.newline rest
    rw [List.splitOn_cons_eq_if_modifyHead]
    by_cases ends : byte = Bytes.newline
    · -- The line is complete, and the next one starts from nothing.
      have fresh := ih [] (finish current :: done) (by decide) (by decide)
      rw [modifyHead_nothing] at fresh
      simp only [splitFrom, if_pos ends, beq_iff_eq, List.modifyHead_cons, List.append_nil]
      rw [withoutEmptyEnd_cons _ more, ofPieces_cons short, ← finish_eq]
      refine fresh.trans ?_
      rw [List.reverse_cons, List.append_assoc]
      rfl
    · obtain ⟨piece, later, split⟩ := List.exists_cons_of_ne_nil more
      simp only [splitFrom, if_neg ends, beq_iff_eq, split, List.modifyHead_cons]
      by_cases full : current.length + 1 = bufferSize
      · -- The line with this byte leaves no room for its newline.
        have filled : current.reverse ++ byte :: piece ≠ [] := by simp
        have long : ¬ fits (current.reverse ++ byte :: piece) := by
          simp only [fits, List.length_append, List.length_reverse, List.length_cons, decide_eq_true_eq]
          omega
        obtain ⟨others, kept⟩ := withoutEmptyEnd_head filled later
        rw [if_pos full, kept, ofPieces_overlong long, List.append_nil]
      · -- The byte goes to the line, and the first piece goes on behind it.
        have next := ih (byte :: current) done (by rw [List.length_cons]; omega) (by
          simp only [fits, List.length_reverse, List.length_cons, decide_eq_true_eq]
          omega)
        simp only [split, List.modifyHead_cons, List.reverse_cons, List.append_assoc, List.singleton_append] at next
        rw [if_neg full]
        exact next

/-- The lines of a text are those of its pieces. -/
theorem split_eq (text : Bytes) : split text = ofPieces (pieces text) := by
  have general := splitFrom_eq text [] [] (by decide)
  rw [modifyHead_nothing] at general
  exact general

/-- Bytes in front of the first newline belong to the first row. -/
theorem splitOn_append {front : Bytes} (inside : Bytes.newline ∉ front) (rest : Bytes) :
    (front ++ rest).splitOn Bytes.newline = (rest.splitOn Bytes.newline).modifyHead (front ++ ·) := by
  induction front with
  | nil => exact (modifyHead_nothing _).symm
  | cons byte front ih =>
    rw [List.mem_cons, not_or] at inside
    obtain ⟨differs, later⟩ := inside
    have other : (byte == Bytes.newline) = false := beq_eq_false_iff_ne.mpr (Ne.symm differs)
    rw [List.cons_append, List.splitOn_cons_eq_if_modifyHead, ih later, other, List.modifyHead_modifyHead]
    rfl

/-- Leaving out an empty end adds no row. -/
theorem mem_of_mem_withoutEmptyEnd {rows : List Bytes} {row : Bytes} (within : row ∈ withoutEmptyEnd rows) :
    row ∈ rows := by
  unfold withoutEmptyEnd at within
  split at within
  · exact (List.dropLast_sublist rows).subset within
  · exact within

end StackMachine.Lines
