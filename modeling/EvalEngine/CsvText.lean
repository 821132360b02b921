import Mathlib.Data.List.Basic

namespace EvalEngine.CsvText

/-- The two characters that a format is free to choose. -/
structure Dialect where
  delimiter : Char
  quotechar : Char
  distinct : delimiter ≠ quotechar
  delimiter_inline : delimiter ≠ '\r' ∧ delimiter ≠ '\n'
  quotechar_inline : quotechar ≠ '\r' ∧ quotechar ≠ '\n'

/-- The dialect that a writer has by default. -/
def excel : Dialect where
  delimiter := ','
  quotechar := '"'
  distinct := by decide
  delimiter_inline := by decide
  quotechar_inline := by decide

section Writer

variable (d : Dialect)

/-- A field with such a character is quoted. -/
def Dialect.special (c : Char) : Bool := c == d.delimiter || c == d.quotechar || c == '\r' || c == '\n'

def doubled (cs : List Char) : List Char := cs.flatMap fun c => if c = d.quotechar then [c, c] else [c]

def quoted (cs : List Char) : List Char := d.quotechar :: (doubled d cs ++ [d.quotechar])

def writeField (cs : List Char) : List Char := if cs.any d.special then quoted d cs else cs

def joinFields : List (List Char) → List Char
  | [] => []
  | [field] => writeField d field
  | field :: fields => writeField d field ++ d.delimiter :: joinFields fields

/-- A row of one empty field is quoted: it would be a blank line. -/
def rowText : List (List Char) → List Char
  | [[]] => quoted d []
  | fields => joinFields d fields

def writerow (fields : List (List Char)) : List Char := rowText d fields ++ ['\r', '\n']

def writerows (rows : List (List (List Char))) : List Char := rows.flatMap (writerow d)

end Writer

inductive Mode
  | startRecord
  | startField
  | inField
  | inQuoted
  | quoteSeen
  | returnSeen

/-- A reader with the fields and the rows that it has got so far. -/
structure Reader where
  mode : Mode
  field : List Char
  row : List (List Char)
  rows : List (List (List Char))

namespace Reader

variable (d : Dialect)

def start : Reader := ⟨.startRecord, [], [], []⟩

def add (r : Reader) (mode : Mode) (c : Char) : Reader := ⟨mode, r.field ++ [c], r.row, r.rows⟩

def endField (r : Reader) (mode : Mode) : Reader := ⟨mode, [], r.row ++ [r.field], r.rows⟩

def endRow (r : Reader) : Reader := ⟨.startRecord, [], [], r.rows ++ [r.row]⟩

/-- What ends the field before it. -/
def separate (r : Reader) (c : Char) : Option Reader :=
  if c = d.delimiter then some (r.endField .startField)
  else if c = '\r' then some (r.endField .returnSeen)
  else if c = '\n' then some (r.endField .startRecord).endRow
  else none

def beginField (r : Reader) (c : Char) : Reader :=
  (r.separate d c).getD (if c = d.quotechar then { r with mode := .inQuoted } else r.add .inField c)

def beginRecord (r : Reader) (c : Char) : Reader :=
  if c = '\r' then { r with mode := .returnSeen } else if c = '\n' then r.endRow else r.beginField d c

def next (r : Reader) (c : Char) : Reader :=
  match r.mode with
  | .startRecord => r.beginRecord d c
  | .startField => r.beginField d c
  | .inField => (r.separate d c).getD (r.add .inField c)
  | .inQuoted => if c = d.quotechar then { r with mode := .quoteSeen } else r.add .inQuoted c
  | .quoteSeen => (r.separate d c).getD (r.add (if c = d.quotechar then .inQuoted else .inField) c)
  | .returnSeen => if c = '\n' then r.endRow else r.endRow.beginRecord d c

/-- The rows at the end of the text, of which the last may have no line end. -/
def finish (r : Reader) : List (List (List Char)) :=
  match r.mode with
  | .startRecord => r.rows
  | .returnSeen => r.rows ++ [r.row]
  | .startField | .inField | .inQuoted | .quoteSeen => r.rows ++ [r.row ++ [r.field]]

end Reader

/-- `list(csv.reader(text))`. -/
def readRows (d : Dialect) (text : List Char) : List (List (List Char)) :=
  (text.foldl (Reader.next d) Reader.start).finish

open Reader

variable {d : Dialect} {c : Char} {cs field f : List Char} {row fields : List (List Char)}
  {rows : List (List (List Char))}

theorem special_eq_false (h : d.special c = false) :
    c ≠ d.delimiter ∧ c ≠ d.quotechar ∧ c ≠ '\r' ∧ c ≠ '\n' := by
  simpa [Dialect.special, and_assoc] using h

theorem separate_delimiter (r : Reader) : r.separate d d.delimiter = some (r.endField .startField) := by
  simp [separate]

theorem separate_return (r : Reader) : r.separate d '\r' = some (r.endField .returnSeen) := by
  simp [separate, d.delimiter_inline.1.symm]

theorem separate_quotechar (r : Reader) : r.separate d d.quotechar = none := by
  simp [separate, d.distinct.symm, d.quotechar_inline.1, d.quotechar_inline.2]

theorem separate_plain (r : Reader) (h : d.special c = false) : r.separate d c = none := by
  obtain ⟨hdelimiter, _, hreturn, hnewline⟩ := special_eq_false h
  simp [separate, hdelimiter, hreturn, hnewline]

theorem scan_doubled : (doubled d cs).foldl (next d) ⟨.inQuoted, f, row, rows⟩ =
    ⟨.inQuoted, f ++ cs, row, rows⟩ := by
  induction cs generalizing f with
  | nil => simp [doubled]
  | cons c cs ih =>
    have hsplit : doubled d (c :: cs) = (if c = d.quotechar then [c, c] else [c]) ++ doubled d cs := rfl
    rw [hsplit, List.foldl_append]
    by_cases hc : c = d.quotechar
    · subst hc
      have htwo : next d (next d ⟨.inQuoted, f, row, rows⟩ d.quotechar) d.quotechar =
          ⟨.inQuoted, f ++ [d.quotechar], row, rows⟩ := by
        simp [next, separate_quotechar, add]
      simp only [if_true, List.foldl_cons, List.foldl_nil, htwo, ih, List.append_assoc, List.cons_append,
        List.nil_append]
    · have hone : next d ⟨.inQuoted, f, row, rows⟩ c = ⟨.inQuoted, f ++ [c], row, rows⟩ := by
        simp [next, hc, add]
      simp only [hc, if_false, List.foldl_cons, List.foldl_nil, hone, ih, List.append_assoc, List.cons_append,
        List.nil_append]

/-- After its quotes, a field waits for what comes next. -/
theorem scan_quoted : (quoted d cs).foldl (next d) ⟨.startField, [], row, rows⟩ =
    ⟨.quoteSeen, cs, row, rows⟩ := by
  have hopen : next d ⟨.startField, [], row, rows⟩ d.quotechar = ⟨.inQuoted, [], row, rows⟩ := by
    simp [next, beginField, separate_quotechar]
  rw [quoted, List.foldl_cons, List.foldl_append, hopen, scan_doubled]
  simp [next]

theorem scan_plain (h : ∀ c ∈ cs, d.special c = false) :
    cs.foldl (next d) ⟨.inField, f, row, rows⟩ = ⟨.inField, f ++ cs, row, rows⟩ := by
  induction cs generalizing f with
  | nil => simp
  | cons c cs ih =>
    have hc := h c List.mem_cons_self
    have hone : next d ⟨.inField, f, row, rows⟩ c = ⟨.inField, f ++ [c], row, rows⟩ := by
      simp [next, separate_plain _ hc, add]
    rw [List.foldl_cons, hone, ih fun c' hc' => h c' (List.mem_cons_of_mem c hc')]
    simp

/-- The modes in which a field may end. -/
def Mode.closable : Mode → Bool
  | .startField | .inField | .quoteSeen => true
  | .startRecord | .inQuoted | .returnSeen => false

theorem scan_field : ∃ mode : Mode, mode.closable = true ∧
    (writeField d field).foldl (next d) ⟨.startField, [], row, rows⟩ = ⟨mode, field, row, rows⟩ := by
  unfold writeField
  split
  · exact ⟨.quoteSeen, rfl, scan_quoted⟩
  · rename_i hplain
    cases field with
    | nil => exact ⟨.startField, rfl, rfl⟩
    | cons c cs =>
      have hall : ∀ c' ∈ c :: cs, d.special c' = false := by simpa using hplain
      have hc := hall c List.mem_cons_self
      have hone : next d ⟨.startField, [], row, rows⟩ c = ⟨.inField, [c], row, rows⟩ := by
        simp [next, beginField, separate_plain _ hc, (special_eq_false hc).2.1, add]
      refine ⟨.inField, rfl, ?_⟩
      rw [List.foldl_cons, hone, scan_plain fun c' hc' => hall c' (List.mem_cons_of_mem c hc')]
      rfl

/-- In each of them a separator does the same. -/
theorem next_separator {mode : Mode} {r : Reader} (hmode : mode.closable = true)
    (hseparate : separate d ⟨mode, field, row, rows⟩ c = some r) :
    next d ⟨mode, field, row, rows⟩ c = r := by
  cases mode with
  | startField | inField | quoteSeen => simp [next, beginField, hseparate]
  | startRecord | inQuoted | returnSeen => cases hmode

theorem scan_joinFields (hne : fields ≠ []) :
    (joinFields d fields ++ ['\r']).foldl (next d) ⟨.startField, [], row, rows⟩ =
      ⟨.returnSeen, [], row ++ fields, rows⟩ := by
  induction fields generalizing row with
  | nil => exact absurd rfl hne
  | cons field fields ih =>
    obtain ⟨mode, hmode, hscan⟩ := @scan_field d field row rows
    cases fields with
    | nil =>
      rw [joinFields, List.foldl_append, hscan]
      exact next_separator hmode (separate_return _)
    | cons field' fields' =>
      have hnext : next d ⟨mode, field, row, rows⟩ d.delimiter =
          ⟨.startField, [], row ++ [field], rows⟩ := next_separator hmode (separate_delimiter _)
      rw [joinFields, List.append_assoc, List.foldl_append, hscan, List.cons_append, List.foldl_cons, hnext,
        ih (List.cons_ne_nil _ _)]
      · simp
      · exact List.cons_ne_nil _ _

/-- A row begins where a field could, with none but blank lines ending at once. -/
theorem beginRecord_inline {r : Reader} (h : c ≠ '\r' ∧ c ≠ '\n') : r.beginRecord d c = r.beginField d c := by
  simp [beginRecord, h.1, h.2]

theorem writeField_head (hne : field ≠ []) :
    ∃ c cs, writeField d field = c :: cs ∧ c ≠ '\r' ∧ c ≠ '\n' := by
  unfold writeField
  split
  · exact ⟨d.quotechar, doubled d field ++ [d.quotechar], rfl, d.quotechar_inline⟩
  · rename_i hplain
    cases field with
    | nil => exact absurd rfl hne
    | cons c cs =>
      have hc : d.special c = false := by
        have hall : ∀ c' ∈ c :: cs, d.special c' = false := by simpa using hplain
        exact hall c List.mem_cons_self
      exact ⟨c, cs, rfl, (special_eq_false hc).2.2⟩

theorem rowText_cons (field field' : List Char) (fields : List (List Char)) :
    rowText d (field :: field' :: fields) =
      writeField d field ++ d.delimiter :: joinFields d (field' :: fields) := by
  cases field <;> rfl

theorem rowText_head (hne : fields ≠ []) : ∃ c cs, rowText d fields = c :: cs ∧ c ≠ '\r' ∧ c ≠ '\n' := by
  match fields, hne with
  | [[]], _ => exact ⟨d.quotechar, doubled d [] ++ [d.quotechar], rfl, d.quotechar_inline⟩
  | [c :: cs], _ => exact writeField_head (List.cons_ne_nil c cs)
  | [] :: field :: fields, _ => exact ⟨d.delimiter, joinFields d (field :: fields), rfl, d.delimiter_inline⟩
  | (c :: cs) :: field :: fields, _ =>
    obtain ⟨c', cs', htext, hinline⟩ := @writeField_head d (c :: cs) (List.cons_ne_nil c cs)
    refine ⟨c', cs' ++ d.delimiter :: joinFields d (field :: fields), ?_, hinline⟩
    rw [rowText_cons, htext]
    rfl

theorem scan_rowText (hne : fields ≠ []) :
    (rowText d fields ++ ['\r']).foldl (next d) ⟨.startField, [], row, rows⟩ =
      ⟨.returnSeen, [], row ++ fields, rows⟩ := by
  unfold rowText
  split
  · have hclosable : Mode.quoteSeen.closable = true := rfl
    rw [List.foldl_append, scan_quoted]
    exact next_separator hclosable (separate_return _)
  · exact scan_joinFields hne

theorem scan_writerow :
    (writerow d fields).foldl (next d) ⟨.startRecord, [], [], rows⟩ =
      ⟨.startRecord, [], [], rows ++ [fields]⟩ := by
  have hline : writerow d fields = rowText d fields ++ ['\r'] ++ ['\n'] := by simp [writerow]
  rw [hline, List.foldl_append]
  by_cases hne : fields = []
  · subst hne
    simp [rowText, joinFields, next, beginRecord, endRow]
  · have hstart : (rowText d fields ++ ['\r']).foldl (next d) ⟨.startRecord, [], [], rows⟩ =
        (rowText d fields ++ ['\r']).foldl (next d) ⟨.startField, [], [], rows⟩ := by
      obtain ⟨c, cs, htext, hinline⟩ := @rowText_head d fields hne
      rw [htext, List.cons_append, List.foldl_cons, List.foldl_cons]
      have hfirst : next d ⟨.startRecord, [], [], rows⟩ c = beginField d ⟨.startRecord, [], [], rows⟩ c :=
        beginRecord_inline hinline
      rw [hfirst]
      rfl
    rw [hstart, scan_rowText hne]
    simp [next, endRow]

theorem scan_writerows {written : List (List (List Char))} :
    (writerows d written).foldl (next d) ⟨.startRecord, [], [], rows⟩ =
      ⟨.startRecord, [], [], rows ++ written⟩ := by
  induction written generalizing rows with
  | nil => simp [writerows]
  | cons fields written ih =>
    have hsplit : writerows d (fields :: written) = writerow d fields ++ writerows d written := rfl
    rw [hsplit, List.foldl_append, scan_writerow, ih]
    simp

/-- What is written is read back, whatever the fields contain. -/
theorem readRows_writerows (written : List (List (List Char))) : readRows d (writerows d written) = written := by
  rw [readRows, Reader.start, scan_writerows]
  simp [finish]

theorem writerows_injective : Function.Injective (writerows d) :=
  Function.LeftInverse.injective readRows_writerows

end EvalEngine.CsvText
