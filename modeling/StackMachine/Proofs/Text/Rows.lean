import StackMachine.Proofs.Text.Numeral

/-! Texts of rows: a newline ends each row, and a blank stands between two fields of a row. -/

namespace StackMachine.Text

/-- The rows of a text, each of which ends in a newline. -/
def rows (text : String) : List (List Char) :=
  (text.toList.splitOn '\n').dropLast

/-- The fields of a row. -/
def fields (row : List Char) : List (List Char) :=
  row.splitOn ' '

/-- The numbers in hexadecimal among the fields of a row. -/
def numbers (row : List Char) : List Nat :=
  (fields row).filterMap (Numeral.read? .hexadecimal)

/-- Rows that are ended by newlines, and hold none, are found again. -/
theorem rows_eq {text : String} {spelled : List (List Char)} (whole : text.toList = spelled.flatMap (· ++ ['\n']))
    (inside : ∀ row ∈ spelled, '\n' ∉ row) : rows text = spelled := by
  rw [rows, whole]
  clear whole
  induction spelled with
  | nil => simp
  | cons row rest ih =>
    -- The first newline ends the first row, and the rest of the text is split on its own.
    have later := ih fun other within => inside other (List.mem_cons_of_mem row within)
    rw [List.flatMap_cons, List.append_assoc, List.singleton_append,
      List.splitOn_append_cons_self_of_not_mem (inside row List.mem_cons_self),
      List.dropLast_cons_of_ne_nil (List.splitOn_ne_nil _ _), later]

/-- A field in front of a blank is the first field, and the others are those of the rest. -/
theorem fields_append {field : List Char} (solid : ' ' ∉ field) (rest : List Char) :
    fields (field ++ ' ' :: rest) = field :: fields rest :=
  List.splitOn_append_cons_self_of_not_mem solid rest

/-- A row without blanks is a single field. -/
theorem fields_single {field : List Char} (solid : ' ' ∉ field) : fields field = [field] :=
  List.splitOn_eq_singleton solid

/-- Fields with blanks between them hold nothing but what the fields hold. -/
theorem notMem_intercalate {other : Char} {spelled : List (List Char)} (apart : other ≠ ' ')
    (inside : ∀ field ∈ spelled, other ∉ field) : other ∉ [' '].intercalate spelled := by
  induction spelled with
  | nil => simp
  | cons field rest ih =>
    have first := inside field List.mem_cons_self
    -- Only a field that has another one behind it is followed by a blank.
    cases rest with
    | nil =>
      rw [List.intercalate_singleton]
      exact first
    | cons next rest =>
      have later := ih fun other within => inside other (List.mem_cons_of_mem field within)
      rw [List.intercalate_cons_cons]
      simp only [List.mem_append, List.mem_singleton]
      rintro ((within | blank) | within)
      · exact first within
      · exact apart blank
      · exact later within

/-- The numbers of a row are that of its first field, if it is one, and those of the rest. -/
theorem numbers_append {field : List Char} (solid : ' ' ∉ field) (rest : List Char) :
    numbers (field ++ ' ' :: rest) = (Numeral.read? .hexadecimal field).toList ++ numbers rest := by
  rw [numbers, fields_append solid, List.filterMap_cons, numbers]
  cases Numeral.read? .hexadecimal field with
  | none => rfl
  | some number => rfl

/-- A row of a single field has one number at most. -/
theorem numbers_single {field : List Char} (solid : ' ' ∉ field) :
    numbers field = (Numeral.read? .hexadecimal field).toList := by
  rw [numbers, fields_single solid, List.filterMap_cons]
  cases Numeral.read? .hexadecimal field with
  | none => rfl
  | some number => rfl

end StackMachine.Text
