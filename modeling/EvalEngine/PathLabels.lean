import EvalEngine.DecimalDigits
import EvalEngine.Exceptions
import Mathlib.Data.List.TakeWhile

namespace EvalEngine.PathLabels

open EvalEngine.DecimalDigits EvalEngine.Exceptions

section Patterns

variable {α : Type}

/-- What follows one character of each class. -/
def stripClasses : List (α → Bool) → List α → Option (List α)
  | [], cs => some cs
  | _ :: _, [] => none
  | p :: ps, c :: cs => if p c then stripClasses ps cs else none

/-- `re.sub` for such a pattern. The first `skip` characters belong to the match before. -/
def subClasses (ps : List (α → Bool)) (repl : List α) : ℕ → List α → List α
  | _, [] => []
  | skip + 1, _ :: cs => subClasses ps repl skip cs
  | 0, c :: cs =>
    if (stripClasses ps (c :: cs)).isSome then repl ++ subClasses ps repl (ps.length - 1) cs
    else c :: subClasses ps repl 0 cs

variable {ps : List (α → Bool)} {repl cs u v : List α} {b : α}

theorem length_le_of_strip (h : (stripClasses ps cs).isSome = true) : ps.length ≤ cs.length := by
  induction ps generalizing cs with
  | nil => exact Nat.zero_le _
  | cons p ps ih =>
    cases cs with
    | nil => cases h
    | cons c cs =>
      rw [stripClasses] at h
      split at h
      · exact Nat.succ_le_succ (ih h)
      · cases h

/-- No match goes past a character of none of the classes. -/
theorem strip_barrier (hb : ∀ p ∈ ps, p b = false) :
    (stripClasses ps (u ++ b :: v)).isSome = (stripClasses ps u).isSome := by
  induction ps generalizing u with
  | nil => rfl
  | cons p ps ih =>
    cases u with
    | nil =>
      have hnone : stripClasses (p :: ps) (b :: v) = none := by
        rw [stripClasses, hb p List.mem_cons_self]
        rfl
      rw [List.nil_append, hnone]
      rfl
    | cons c u =>
      rw [List.cons_append, stripClasses, stripClasses]
      split
      · exact ih fun p' hp' => hb p' (List.mem_cons_of_mem p hp')
      · rfl

/-- So it splits the text. -/
theorem sub_barrier {skip : ℕ} (hps : ps ≠ []) (hb : ∀ p ∈ ps, p b = false) (hskip : skip ≤ u.length) :
    subClasses ps repl skip (u ++ b :: v) = subClasses ps repl skip u ++ b :: subClasses ps repl 0 v := by
  induction u generalizing skip with
  | nil =>
    obtain rfl := Nat.le_zero.1 hskip
    have hnone : (stripClasses ps (b :: v)).isSome = false := by
      have h := @strip_barrier α ps [] v b hb
      rw [List.nil_append] at h
      rw [h]
      cases ps with
      | nil => exact absurd rfl hps
      | cons p ps => rfl
    have hcopy : subClasses ps repl 0 (b :: v) = b :: subClasses ps repl 0 v := by
      rw [subClasses, hnone]
      rfl
    rw [List.nil_append, hcopy, subClasses]
    rfl
  | cons c u ih =>
    cases skip with
    | succ skip => exact ih (Nat.le_of_succ_le_succ hskip)
    | zero =>
      have hsame := @strip_barrier α ps (c :: u) v b hb
      rw [List.cons_append] at hsame ⊢
      rw [subClasses, subClasses, hsame]
      split
      · rename_i hmatch
        have hlength : ps.length ≤ u.length + 1 := length_le_of_strip hmatch
        rw [ih (Nat.sub_le_of_le_add hlength), List.append_assoc]
      · rw [ih (Nat.zero_le _), List.cons_append]

theorem sub_skipped {skip : ℕ} (h : cs.length ≤ skip) : subClasses ps repl skip cs = [] := by
  induction cs generalizing skip with
  | nil => simp [subClasses]
  | cons c cs ih =>
    obtain ⟨skip, rfl⟩ := Nat.exists_eq_add_of_le' (Nat.lt_of_lt_of_le (Nat.zero_lt_succ _) h)
    exact ih (Nat.le_of_succ_le_succ h)

/-- A text that matches as a whole is replaced as a whole. -/
theorem sub_whole (hps : ps ≠ []) (h : stripClasses ps cs = some []) : subClasses ps repl 0 cs = repl := by
  have hlength : ∀ {ps : List (α → Bool)} {cs : List α}, stripClasses ps cs = some [] → cs.length = ps.length := by
    intro ps
    induction ps with
    | nil =>
      intro cs h
      cases h
      rfl
    | cons p ps ih =>
      intro cs h
      cases cs with
      | nil => cases h
      | cons c cs =>
        rw [stripClasses] at h
        split at h
        · exact congrArg Nat.succ (ih h)
        · cases h
  cases cs with
  | nil => exact absurd (List.length_eq_zero_iff.1 (hlength h).symm) hps
  | cons c cs =>
    have hrest : cs.length ≤ ps.length - 1 := Nat.le_sub_one_of_lt (by rw [← hlength h]; exact Nat.lt_succ_self _)
    rw [subClasses, h, sub_skipped hrest]
    exact List.append_nil repl

end Patterns

def isHex (c : Char) : Bool :=
  decide (('0' ≤ c ∧ c ≤ '9') ∨ ('a' ≤ c ∧ c ≤ 'f') ∨ ('A' ≤ c ∧ c ≤ 'F'))

def isDash (c : Char) : Bool := decide (c = '-')

/-- `_UUID_RE`. -/
def uuidClasses : List (Char → Bool) :=
  List.replicate 8 isHex ++ isDash :: (List.replicate 4 isHex ++ isDash :: (List.replicate 4 isHex ++
    isDash :: (List.replicate 4 isHex ++ isDash :: List.replicate 12 isHex)))

def subUuid (cs : List Char) : List Char := subClasses uuidClasses ":id".toList 0 cs

/-- `(?=/|$)`: the end may stand before a last line break. -/
def endsSegment : List Char → Bool
  | [] | ['\n'] | '/' :: _ => true
  | _ => false

/-- `_NUMERIC_ID_RE.sub("/:id", path)`. -/
def subNumeric : ℕ → List Char → List Char
  | _, [] => []
  | skip + 1, _ :: cs => subNumeric skip cs
  | 0, c :: cs =>
    if c = '/' ∧ cs.takeWhile isDecimal ≠ [] ∧ endsSegment (cs.dropWhile isDecimal) = true then
      "/:id".toList ++ subNumeric (cs.takeWhile isDecimal).length cs
    else c :: subNumeric 0 cs

/-- `_normalize_path`. -/
def normalizePath (path : String) : String := String.ofList (subNumeric 0 (subUuid path.toList))

/-- The parts of a path of the router. -/
inductive Part
  | literal (text : String)
  | parameter
  deriving DecidableEq

def Part.template : Part → List Char
  | .literal text => text.toList
  | .parameter => ":id".toList

def joinPath (segments : List (List Char)) : List Char := segments.flatMap ('/' :: ·)

/-- The label that stands for a path of the router. -/
def template (route : List Part) : String := String.ofList (joinPath (route.map Part.template))

/-- An identifier as the API itself writes it. -/
def IsUuid (cs : List Char) : Prop := stripClasses uuidClasses cs = some []

/-- What a request may write where a path of the router has a part. -/
inductive Fills : Part → List Char → Prop
  | literal (text : String) : Fills (.literal text) text.toList
  | parameter {cs : List Char} (h : IsUuid cs) : Fills .parameter cs

/-- A literal that neither substitution touches. -/
def isPlain (text : String) : Bool :=
  text.toList.all (fun c => c != '/' && c != '\n') && decide (subUuid text.toList = text.toList) &&
    !text.toList.all isDecimal

/-- The paths of the routers, under the prefixes of their modules. -/
def routes : List (List Part) :=
  (([[.literal "health", .literal "live"],
    [.literal "health", .literal "ready"],
    [.literal "health", .literal "deps"],
    [.literal "health"],
    [.literal "auth", .literal "register"],
    [.literal "auth", .literal "login"],
    [.literal "auth", .literal "refresh"],
    [.literal "auth", .literal "me"],
    [.literal "auth", .literal "api-keys"],
    [.literal "auth", .literal "api-keys", .parameter],
    [.literal "submissions"],
    [.literal "submissions", .parameter],
    [.literal "submissions", .parameter, .literal "evaluate"],
    [.literal "evaluations", .literal "configs"],
    [.literal "evaluations", .literal "configs", .parameter],
    [.literal "evaluations", .literal "runs"],
    [.literal "evaluations", .literal "runs", .parameter],
    [.literal "evaluations", .literal "runs", .parameter, .literal "cancel"],
    [.literal "datasets"],
    [.literal "datasets", .parameter],
    [.literal "datasets", .parameter, .literal "confirm"],
    [.literal "metrics"],
    [.literal "metrics", .parameter],
    [.literal "results", .literal "run", .parameter, .literal "workers"],
    [.literal "results", .literal "run", .parameter, .literal "claims"],
    [.literal "results", .literal "run", .parameter, .literal "contradictions"],
    [.literal "results", .literal "run", .parameter, .literal "scores"],
    [.literal "results", .literal "run", .parameter, .literal "summary"],
    [.literal "results", .literal "run", .parameter, .literal "export"]] : List (List Part)).map
      fun route => .literal "api" :: .literal "v1" :: route)

/-- A request path of a path of the router. -/
structure PathOf (route : List Part) (path : String) : Prop where
  filled : ∃ segments, List.Forall₂ Fills route segments ∧ path.toList = joinPath segments

variable {cs u v : List Char} {segments : List (List Char)} {route : List Part} {path : String}

theorem uuidClasses_ne_nil : uuidClasses ≠ [] := List.cons_ne_nil _ _

theorem uuidClasses_slash : ∀ p ∈ uuidClasses, p '/' = false := by
  have hhex : isHex '/' = false := by decide
  have hdash : isDash '/' = false := by decide
  intro p hp
  have hclass : p = isHex ∨ p = isDash := by
    simp only [uuidClasses, List.mem_append, List.mem_cons, List.mem_replicate] at hp
    grind
  obtain rfl | rfl := hclass
  · exact hhex
  · exact hdash

theorem subUuid_slash (u v : List Char) : subUuid (u ++ '/' :: v) = subUuid u ++ '/' :: subUuid v :=
  sub_barrier uuidClasses_ne_nil uuidClasses_slash (Nat.zero_le _)

/-- The first substitution works on each segment alone. -/
theorem subUuid_joinPath (segments : List (List Char)) :
    subUuid (joinPath segments) = joinPath (segments.map subUuid) := by
  have hfront : ∀ (seg : List Char) (segments : List (List Char)),
      subUuid (seg ++ joinPath segments) = subUuid seg ++ joinPath (segments.map subUuid) := by
    intro seg segments
    induction segments generalizing seg with
    | nil => simp [joinPath]
    | cons next segments ih =>
      have hjoin : joinPath (next :: segments) = '/' :: (next ++ joinPath segments) := rfl
      rw [hjoin, subUuid_slash, ih]
      rfl
  exact hfront [] segments

theorem subNumeric_copy (h : '/' ∉ u) (v : List Char) : subNumeric 0 (u ++ v) = u ++ subNumeric 0 v := by
  induction u with
  | nil => rfl
  | cons c u ih =>
    have hc : c ≠ '/' := fun heq => h (heq ▸ List.mem_cons_self)
    have hu : '/' ∉ u := fun hmem => h (List.mem_cons_of_mem c hmem)
    rw [List.cons_append, List.cons_append, subNumeric, if_neg fun hif => hc hif.1, ih hu]

/-- The second substitution leaves a segment alone that is not a number. -/
theorem subNumeric_segment {seg : List Char} (hslash : '/' ∉ seg) (hline : '\n' ∉ seg)
    (hnumber : seg.all isDecimal = false) (segments : List (List Char)) :
    subNumeric 0 ('/' :: (seg ++ joinPath segments)) = '/' :: (seg ++ subNumeric 0 (joinPath segments)) := by
  have hstop : endsSegment ((seg ++ joinPath segments).dropWhile isDecimal) = false := by
    obtain ⟨c, hc, hother⟩ := List.all_eq_false.1 hnumber
    have hne : seg.dropWhile isDecimal ≠ [] := by
      intro hnil
      exact hother (List.dropWhile_eq_nil_iff.1 hnil c hc)
    obtain ⟨d, rest, hdrop⟩ := List.exists_cons_of_ne_nil hne
    have hmem : d ∈ seg := (List.dropWhile_sublist isDecimal).subset (hdrop ▸ List.mem_cons_self)
    have hd : d ≠ '/' := fun heq => hslash (heq ▸ hmem)
    have hd' : d ≠ '\n' := fun heq => hline (heq ▸ hmem)
    rw [List.dropWhile_append, hdrop]
    simp only [List.isEmpty_cons, Bool.false_eq_true, if_false, List.cons_append]
    unfold endsSegment
    split
    · rename_i heq
      cases heq
    · rename_i heq
      exact absurd (List.cons.inj heq).1 hd'
    · rename_i heq
      exact absurd (List.cons.inj heq).1 hd
    · rfl
  rw [subNumeric, if_neg, subNumeric_copy hslash]
  rintro ⟨-, -, hends⟩
  rw [hstop] at hends
  cases hends

/-- What fills a part is labelled by the part: `:id` for an identifier. -/
theorem Fills.label {part : Part} {seg : List Char} (h : Fills part seg)
    (hpart : ∀ text, part = .literal text → isPlain text = true) : subUuid seg = part.template := by
  cases h with
  | literal text =>
    have hplain := hpart text rfl
    simp only [isPlain, Bool.and_eq_true] at hplain
    exact of_decide_eq_true hplain.1.2
  | parameter h => exact sub_whole uuidClasses_ne_nil h

theorem template_plain {part : Part} (hpart : ∀ text, part = .literal text → isPlain text = true) :
    '/' ∉ part.template ∧ '\n' ∉ part.template ∧ part.template.all isDecimal = false := by
  cases part with
  | literal text =>
    have hplain := hpart text rfl
    simp only [isPlain, Bool.and_eq_true, List.all_eq_true, bne_iff_ne, Bool.not_eq_true'] at hplain
    exact ⟨fun h => (hplain.1.1 _ h).1 rfl, fun h => (hplain.1.1 _ h).2 rfl, hplain.2⟩
  | parameter => decide

def Plain (route : List Part) : Prop := ∀ part ∈ route, ∀ text, part = .literal text → isPlain text = true

theorem subNumeric_template (hroute : Plain route) :
    subNumeric 0 (joinPath (route.map Part.template)) = joinPath (route.map Part.template) := by
  induction route with
  | nil => rfl
  | cons part route ih =>
    obtain ⟨hslash, hline, hnumber⟩ := template_plain (hroute part List.mem_cons_self)
    have hjoin : joinPath ((part :: route).map Part.template) =
        '/' :: (part.template ++ joinPath (route.map Part.template)) := rfl
    rw [hjoin, subNumeric_segment hslash hline hnumber,
      ih fun part' hpart' => hroute part' (List.mem_cons_of_mem part hpart')]

/-- Every path of a router is labelled by its template, whatever identifiers it names. -/
theorem normalizePath_route (hroute : Plain route) (h : PathOf route path) : normalizePath path = template route := by
  obtain ⟨segments, hfilled, htext⟩ := h.filled
  have hlabels : segments.map subUuid = route.map Part.template := by
    clear htext h
    induction hfilled with
    | nil => rfl
    | @cons part seg route segments hfills _ ih =>
      rw [List.map_cons, List.map_cons, hfills.label (hroute part List.mem_cons_self),
        ih fun part' hpart' => hroute part' (List.mem_cons_of_mem part hpart')]
  rw [normalizePath, htext, subUuid_joinPath, hlabels, subNumeric_template hroute, template]

theorem routes_plain : ∀ route ∈ routes, Plain route := by
  have hall : (routes.all fun route => route.all fun part =>
      match part with
      | .literal text => isPlain text
      | .parameter => true) = true := by decide +kernel
  intro route hmem part hpart text htext
  have h := List.all_eq_true.1 (List.all_eq_true.1 hall route hmem) part hpart
  rw [htext] at h
  exact h

/-- What the API writes for an identifier is one that the first substitution finds. -/
theorem isUuid_uuidText (id : UUID) : IsUuid (uuidText id).toList := by
  have hhex : ∀ n, isHex (Nat.digitChar (n % 16)) = true := by
    have hall : ∀ d : Fin 16, isHex (Nat.digitChar d) = true := by decide
    exact fun n => hall ⟨n % 16, Nat.mod_lt n (by decide)⟩
  have hdash : isDash '-' = true := by decide
  rw [IsUuid, uuidText, String.toList_ofList, hexDigits]
  simp [uuidGroups, List.range, List.range.loop, uuidClasses, stripClasses, List.replicate, hhex, hdash]

end EvalEngine.PathLabels
