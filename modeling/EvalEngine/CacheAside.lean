import EvalEngine.Transitions
import Mathlib.Data.List.Basic
import Mathlib.Data.Nat.Notation

namespace EvalEngine.CacheAside

open EvalEngine.Transitions

/-- Pages of some rows, cached under keys and invalidated by groups. The pages
of a group stand under keys that its invalidation covers. -/
structure Protocol (α κ γ δ π μ : Type) where
  key : α → κ
  group : α → γ
  covers : γ → κ → Bool
  load : δ → α → π
  touched : μ → List γ
  targets : μ → List γ
  covers_key : ∀ a, covers (group a) (key a) = true

variable {α κ γ δ π μ : Type} [DecidableEq κ] [DecidableEq γ] (P : Protocol α κ γ δ π μ)

/-- A page with the request that it was read for, and the commits to its group
that the read has seen. -/
structure Entry (α π : Type) where
  args : α
  page : π
  epoch : ℕ

/-- A request, with the commits to its group before it started. -/
inductive Reader (α π : Type)
  | asking (args : α) (since : ℕ)
  | missed (args : α)
  | loaded (entry : Entry α π)

/-- An open transaction: the groups it has touched, those it still has to
invalidate, those whose invalidation has begun, and the keys that the current
scan owes. -/
structure Writer (κ γ : Type) where
  touched : List γ := []
  todo : List γ := []
  begun : List γ := []
  scan : Option (γ × List κ) := none

/-- A request that the cache has answered. -/
structure Answer (α π : Type) where
  args : α
  since : ℕ
  entry : Entry α π

structure State (α κ γ δ π : Type) where
  rows : δ
  epoch : γ → ℕ := fun _ => 0
  cache : List (κ × Entry α π) := []
  readers : ℕ → Option (Reader α π) := fun _ => none
  writers : ℕ → Option (Writer κ γ) := fun _ => none
  asked : List α := []
  answers : List (Answer α π) := []

inductive Action (α κ δ μ : Type)
  | ask (i : ℕ) (args : α)
  | hit (i : ℕ)
  | miss (i : ℕ)
  | load (i : ℕ)
  | store (i : ℕ)
  | skip (i : ℕ)
  | expire (key : κ)
  | write (i : ℕ) (m : μ)
  | scan (i : ℕ)
  | remove (i : ℕ) (keys : List κ)
  | finish (i : ℕ)
  | abandon (i : ℕ)
  | commit (i : ℕ) (rows : δ)
  | rollback (i : ℕ)

namespace State

variable (s : State α κ γ δ π)

def read (i : ℕ) (r : Option (Reader α π)) : State α κ γ δ π :=
  { s with readers := Function.update s.readers i r }

def wait (i : ℕ) (w : Option (Writer κ γ)) : State α κ γ δ π :=
  { s with writers := Function.update s.writers i w }

def find (k : κ) : Option (Entry α π) := (s.cache.find? fun slot => decide (slot.1 = k)).map Prod.snd

def drop (keys : List κ) : State α κ γ δ π :=
  { s with cache := s.cache.filter fun slot => decide (slot.1 ∉ keys) }

def put (k : κ) (e : Entry α π) : State α κ γ δ π := { s.drop [k] with cache := (k, e) :: (s.drop [k]).cache }

end State

def start (rows : δ) : State α κ γ δ π := { rows }

/-- Requests and transactions take their steps in any order. A request that
misses may have met a failing cache; `skip` is a page that the cache does not
take, and `abandon` an invalidation that the cache breaks off. A scan is over
when it has met every key that was there when it began. -/
def step (s : State α κ γ δ π) : Action α κ δ μ → Option (State α κ γ δ π)
  | .ask i args =>
    match s.readers i with
    | none => some { s.read i (some (.asking args (s.epoch (P.group args)))) with asked := args :: s.asked }
    | some _ => none
  | .hit i =>
    match s.readers i with
    | some (.asking args since) =>
      (s.find (P.key args)).map fun e =>
        { s.read i none with answers := ⟨args, since, e⟩ :: s.answers }
    | _ => none
  | .miss i =>
    match s.readers i with
    | some (.asking args _) => some (s.read i (some (.missed args)))
    | _ => none
  | .load i =>
    match s.readers i with
    | some (.missed args) =>
      some (s.read i (some (.loaded ⟨args, P.load s.rows args, s.epoch (P.group args)⟩)))
    | _ => none
  | .store i =>
    match s.readers i with
    | some (.loaded e) => some ((s.put (P.key e.args) e).read i none)
    | _ => none
  | .skip i =>
    match s.readers i with
    | some (.loaded _) => some (s.read i none)
    | _ => none
  | .expire key => some (s.drop [key])
  | .write i m =>
    let w := (s.writers i).getD {}
    match w.todo, w.scan with
    | [], none => some (s.wait i (some { w with
        touched := P.touched m ++ w.touched
        todo := P.targets m }))
    | _, _ => none
  | .scan i =>
    match s.writers i with
    | some ⟨touched, g :: todo, begun, none⟩ =>
      some (s.wait i (some ⟨touched, todo, g :: begun,
        some (g, (s.cache.map Prod.fst).filter (P.covers g))⟩))
    | _ => none
  | .remove i keys =>
    match s.writers i with
    | some ⟨touched, todo, begun, some (g, owed)⟩ =>
      let found := keys.filter (P.covers g)
      some ((s.drop found).wait i (some ⟨touched, todo, begun,
        some (g, owed.filter fun k => decide (k ∉ found))⟩))
    | _ => none
  | .finish i =>
    match s.writers i with
    | some ⟨touched, todo, begun, some (_, [])⟩ => some (s.wait i (some ⟨touched, todo, begun, none⟩))
    | _ => none
  | .abandon i =>
    match s.writers i with
    | some ⟨touched, todo, begun, some _⟩ => some (s.wait i (some ⟨touched, todo, begun, none⟩))
    | _ => none
  | .commit i rows =>
    match s.writers i with
    | some ⟨touched, [], _, none⟩ => some { s.wait i none with
        rows
        epoch := fun g => if g ∈ touched then s.epoch g + 1 else s.epoch g }
    | _ => none
  | .rollback i =>
    match s.writers i with
    | some _ => some (s.wait i none)
    | none => none

/-- The key tells a request from those before, a mutation invalidates what it
touches, no invalidation breaks off, and a page is stored only if it is still
that of the committed rows and no open transaction has begun to invalidate its
group. -/
def Timely (s : State α κ γ δ π) : Action α κ δ μ → Prop
  | .ask _ args => ∀ a ∈ s.asked, P.key a = P.key args → a = args
  | .write _ m => P.touched m ⊆ P.targets m
  | .abandon _ => False
  | .store i => ∀ e, s.readers i = some (.loaded e) →
      e.epoch = s.epoch (P.group e.args) ∧
        ∀ j w, s.writers j = some w → P.group e.args ∉ w.begun
  | _ => True

/-- The page was read for the same request, and after every commit to its group
that came before the request. -/
def Answer.Good (a : Answer α π) : Prop := a.entry.args = a.args ∧ a.since ≤ a.entry.epoch

/-- What a request knows is still true. -/
def ReaderFine (s : State α κ γ δ π) : Reader α π → Prop
  | .asking args since => args ∈ s.asked ∧ since ≤ s.epoch (P.group args)
  | .missed args => args ∈ s.asked
  | .loaded e => e.args ∈ s.asked

/-- The pages in the cache are those of the committed rows, and a transaction
that has begun to invalidate a group has met its pages or still owes them. -/
structure Inv (s : State α κ γ δ π) : Prop where
  cached : ∀ slot ∈ s.cache, slot.1 = P.key slot.2.args ∧ slot.2.args ∈ s.asked ∧
    slot.2.epoch = s.epoch (P.group slot.2.args)
  readers : ∀ i r, s.readers i = some r → ReaderFine P s r
  distinct : ∀ a ∈ s.asked, ∀ b ∈ s.asked, P.key a = P.key b → a = b
  touched : ∀ i w, s.writers i = some w → ∀ g ∈ w.touched, g ∈ w.todo ∨ g ∈ w.begun
  owed : ∀ i w, s.writers i = some w → ∀ slot ∈ s.cache, P.group slot.2.args ∈ w.begun →
    ∃ keys, w.scan = some (P.group slot.2.args, keys) ∧ slot.1 ∈ keys
  answers : ∀ a ∈ s.answers, a.Good

variable {P} {s t : State α κ γ δ π}

omit [DecidableEq κ] [DecidableEq γ] in
theorem inv_start (rows : δ) : Inv P (start rows : State α κ γ δ π) := by
  refine ⟨?_, ?_, ?_, ?_, ?_, ?_⟩
  · rintro slot ⟨⟩
  · rintro i r ⟨⟩
  · rintro a ⟨⟩
  · rintro i w ⟨⟩
  · rintro i w ⟨⟩
  · rintro a ⟨⟩

omit [DecidableEq κ] [DecidableEq γ] in
/-- A step that moves one request on. -/
theorem inv_read (hinv : Inv P s) {i : ℕ} {r : Option (Reader α π)} (hr : ∀ r' ∈ r, ReaderFine P s r') :
    Inv P (s.read i r) := by
  refine ⟨hinv.cached, ?_, hinv.distinct, hinv.touched, hinv.owed, hinv.answers⟩
  intro j r' hj
  obtain ⟨-, hnew⟩ | hold := entry_update hj
  · exact hr r' hnew
  · exact hinv.readers j r' hold

omit [DecidableEq κ] [DecidableEq γ] in
/-- A step that moves one transaction on. -/
theorem inv_wait (hinv : Inv P s) {i : ℕ} {w : Option (Writer κ γ)}
    (htouched : ∀ w' ∈ w, ∀ g ∈ w'.touched, g ∈ w'.todo ∨ g ∈ w'.begun)
    (howed : ∀ w' ∈ w, ∀ slot ∈ s.cache, P.group slot.2.args ∈ w'.begun →
      ∃ keys, w'.scan = some (P.group slot.2.args, keys) ∧ slot.1 ∈ keys) : Inv P (s.wait i w) := by
  refine ⟨hinv.cached, hinv.readers, hinv.distinct, ?_, ?_, hinv.answers⟩
  · intro j w' hj
    obtain ⟨-, hnew⟩ | hold := entry_update hj
    · exact htouched w' hnew
    · exact hinv.touched j w' hold
  · intro j w' hj
    obtain ⟨-, hnew⟩ | hold := entry_update hj
    · exact howed w' hnew
    · exact hinv.owed j w' hold

omit [DecidableEq γ] in
/-- A step that takes pages out of the cache. -/
theorem inv_drop (hinv : Inv P s) (keys : List κ) : Inv P (s.drop keys) := by
  have hmem : ∀ slot ∈ (s.drop keys).cache, slot ∈ s.cache := fun slot h => (List.mem_filter.1 h).1
  exact ⟨fun slot h => hinv.cached slot (hmem slot h), hinv.readers, hinv.distinct, hinv.touched,
    fun i w hw slot h => hinv.owed i w hw slot (hmem slot h), hinv.answers⟩

omit [DecidableEq γ] in
/-- A timely page comes into the cache. -/
theorem inv_put (hinv : Inv P s) {e : Entry α π} (hasked : e.args ∈ s.asked)
    (hepoch : e.epoch = s.epoch (P.group e.args))
    (hbegun : ∀ j w, s.writers j = some w → P.group e.args ∉ w.begun) :
    Inv P (s.put (P.key e.args) e) := by
  have hdrop := inv_drop hinv [P.key e.args]
  refine ⟨?_, hinv.readers, hinv.distinct, hinv.touched, ?_, hinv.answers⟩
  · intro slot hslot
    obtain rfl | hold := List.mem_cons.1 hslot
    · exact ⟨rfl, hasked, hepoch⟩
    · exact hdrop.cached slot hold
  · intro i w hw slot hslot hgroup
    obtain rfl | hold := List.mem_cons.1 hslot
    · exact absurd hgroup (hbegun i w hw)
    · exact hdrop.owed i w hw slot hold hgroup

omit [DecidableEq γ] in
/-- An answer that the cache gives. -/
theorem good_hit (hinv : Inv P s) {args : α} {since : ℕ} {e : Entry α π} (hasked : args ∈ s.asked)
    (hsince : since ≤ s.epoch (P.group args)) (hfind : s.find (P.key args) = some e) :
    (⟨args, since, e⟩ : Answer α π).Good := by
  obtain ⟨slot, hslot, rfl⟩ := Option.map_eq_some_iff.1 hfind
  obtain ⟨hkey, hmem, hepoch⟩ := hinv.cached slot (List.mem_of_find?_eq_some hslot)
  have hfound : slot.1 = P.key args := by simpa using List.find?_some hslot
  have hsame : slot.2.args = args := hinv.distinct _ hmem _ hasked (hkey.symm.trans hfound)
  refine ⟨hsame, ?_⟩
  change since ≤ slot.2.epoch
  rw [hepoch, hsame]
  exact hsince

omit [DecidableEq κ] [DecidableEq γ] in
/-- A request that starts. -/
theorem inv_ask (hinv : Inv P s) {i : ℕ} {args : α} (h : ∀ a ∈ s.asked, P.key a = P.key args → a = args) :
    Inv P { s.read i (some (.asking args (s.epoch (P.group args)))) with asked := args :: s.asked } := by
  refine ⟨?_, ?_, ?_, hinv.touched, hinv.owed, hinv.answers⟩
  · intro slot hslot
    obtain ⟨hkey, hasked, hepoch⟩ := hinv.cached slot hslot
    exact ⟨hkey, List.mem_cons_of_mem _ hasked, hepoch⟩
  · intro j r hj
    obtain ⟨-, hnew⟩ | hold := entry_update hj
    · cases hnew
      exact ⟨List.mem_cons_self, Nat.le_refl _⟩
    · have hfine := hinv.readers j r hold
      cases r with
      | asking args' since => exact ⟨List.mem_cons_of_mem _ hfine.1, hfine.2⟩
      | missed args' => exact List.mem_cons_of_mem _ hfine
      | loaded e => exact List.mem_cons_of_mem args hfine
  · intro a ha b hb hkey
    rcases List.mem_cons.1 ha with rfl | haold
    · rcases List.mem_cons.1 hb with rfl | hbold
      · rfl
      · exact (h b hbold hkey.symm).symm
    · rcases List.mem_cons.1 hb with rfl | hbold
      · exact h a haold hkey
      · exact hinv.distinct a haold b hbold hkey

omit [DecidableEq κ] [DecidableEq γ] in
/-- A transaction that is open, or one that begins. -/
theorem writer_fine (hinv : Inv P s) (i : ℕ) :
    (∀ g ∈ ((s.writers i).getD {}).touched,
      g ∈ ((s.writers i).getD {}).todo ∨ g ∈ ((s.writers i).getD {}).begun) ∧
    (∀ slot ∈ s.cache, P.group slot.2.args ∈ ((s.writers i).getD {}).begun →
      ∃ keys, ((s.writers i).getD {}).scan = some (P.group slot.2.args, keys) ∧ slot.1 ∈ keys) := by
  cases hi : s.writers i with
  | none => exact ⟨by rintro g ⟨⟩, by rintro slot - ⟨⟩⟩
  | some w => exact ⟨hinv.touched i w hi, hinv.owed i w hi⟩

theorem inv_hit (hinv : Inv P s) {i : ℕ} (h : step P s (.hit i) = some t) : Inv P t := by
  simp only [step] at h
  split at h
  next args since hi =>
    obtain ⟨e, hfind, rfl⟩ := Option.map_eq_some_iff.1 h
    have hread := inv_read hinv (i := i) (r := none) (by rintro r' ⟨⟩)
    obtain ⟨hasked, hsince⟩ := hinv.readers i _ hi
    refine ⟨hread.cached, hread.readers, hread.distinct, hread.touched, hread.owed, ?_⟩
    intro a ha
    obtain rfl | hold := List.mem_cons.1 ha
    · exact good_hit hinv hasked hsince hfind
    · exact hinv.answers a hold
  next => cases h

theorem inv_write (hinv : Inv P s) {i : ℕ} {m : μ} (hok : P.touched m ⊆ P.targets m)
    (h : step P s (.write i m) = some t) : Inv P t := by
  obtain ⟨htouched, howed⟩ := writer_fine hinv i
  simp only [step] at h
  split at h <;> cases h
  next htodo hscan =>
    refine inv_wait hinv ?_ ?_
    · rintro w' ⟨⟩ g hg
      obtain hnew | hold := List.mem_append.1 hg
      · exact .inl (hok hnew)
      · have hbegun := htouched g hold
        rw [htodo] at hbegun
        exact hbegun.imp_left fun h => absurd h List.not_mem_nil
    · rintro w' ⟨⟩
      exact howed

/-- The scan owes every page of its group that is in the cache when it begins. -/
theorem inv_scan (hinv : Inv P s) {i : ℕ} (h : step P s (.scan i) = some t) : Inv P t := by
  simp only [step] at h
  split at h <;> cases h
  next touched g todo begun hi =>
    refine inv_wait hinv ?_ ?_
    · rintro w' ⟨⟩ g' hg'
      obtain htodo | hbegun := hinv.touched i _ hi g' hg'
      · obtain rfl | htodo := List.mem_cons.1 htodo
        · exact .inr List.mem_cons_self
        · exact .inl htodo
      · exact .inr (List.mem_cons_of_mem _ hbegun)
    · rintro w' ⟨⟩ slot hslot hgroup
      obtain hg | hbegun := List.mem_cons.1 hgroup
      · refine ⟨_, by rw [hg], List.mem_filter.2 ⟨List.mem_map_of_mem hslot, ?_⟩⟩
        rw [(hinv.cached slot hslot).1, ← hg]
        exact P.covers_key _
      · obtain ⟨keys, hscan, -⟩ := hinv.owed i _ hi slot hslot hbegun
        cases hscan

theorem inv_remove (hinv : Inv P s) {i : ℕ} {keys : List κ}
    (h : step P s (.remove i keys) = some t) : Inv P t := by
  simp only [step] at h
  split at h <;> cases h
  next touched todo begun g owed hi =>
    have htouched := hinv.touched i _ hi
    refine inv_wait (inv_drop hinv _) ?_ ?_
    · rintro w' ⟨⟩
      exact htouched
    · rintro w' ⟨⟩ slot hslot hgroup
      obtain ⟨hmem, hkept⟩ := List.mem_filter.1 hslot
      obtain ⟨owed', hscan, howed⟩ := hinv.owed i _ hi slot hmem hgroup
      cases hscan
      exact ⟨_, rfl, List.mem_filter.2 ⟨howed, hkept⟩⟩

theorem inv_finish (hinv : Inv P s) {i : ℕ} (h : step P s (.finish i) = some t) : Inv P t := by
  simp only [step] at h
  split at h <;> cases h
  next touched todo begun g hi =>
    have htouched := hinv.touched i _ hi
    refine inv_wait hinv ?_ ?_
    · rintro w' ⟨⟩
      exact htouched
    · rintro w' ⟨⟩ slot hslot hgroup
      obtain ⟨owed, hscan, howed⟩ := hinv.owed i _ hi slot hslot hgroup
      cases hscan
      cases howed

theorem inv_commit (hinv : Inv P s) {i : ℕ} {rows : δ}
    (h : step P s (.commit i rows) = some t) : Inv P t := by
  simp only [step] at h
  split at h <;> cases h
  next touched begun hi =>
    -- every touched group has been invalidated, so the cache has no page of it
    have hclear : ∀ slot ∈ s.cache, P.group slot.2.args ∉ touched := by
      intro slot hslot hmem
      obtain htodo | hbegun := hinv.touched i _ hi _ hmem
      · exact absurd htodo List.not_mem_nil
      · obtain ⟨keys, hscan, -⟩ := hinv.owed i _ hi slot hslot hbegun
        cases hscan
    have hwait := inv_wait hinv (i := i) (w := none) (by rintro w' ⟨⟩) (by rintro w' ⟨⟩)
    refine ⟨?_, ?_, hwait.distinct, hwait.touched, hwait.owed, hwait.answers⟩
    · intro slot hslot
      obtain ⟨hkey, hasked, hepoch⟩ := hinv.cached slot hslot
      exact ⟨hkey, hasked, hepoch.trans (if_neg (hclear slot hslot)).symm⟩
    · intro j r hj
      have hfine := hinv.readers j r hj
      cases r with
      | asking args since =>
        have hgrows : s.epoch (P.group args) ≤
            if P.group args ∈ touched then s.epoch (P.group args) + 1 else s.epoch (P.group args) := by
          split
          · exact Nat.le_succ _
          · exact Nat.le_refl _
        exact ⟨hfine.1, Nat.le_trans hfine.2 hgrows⟩
      | missed args => exact hfine
      | loaded e => exact hfine

/-- The step lemma of the invariant. -/
theorem inv_step (a : Action α κ δ μ) (hinv : Inv P s) (hok : Timely P s a) (h : step P s a = some t) :
    Inv P t := by
  cases a with
  | ask i args =>
    simp only [step] at h
    split at h <;> cases h
    exact inv_ask hinv hok
  | hit i => exact inv_hit hinv h
  | miss i =>
    simp only [step] at h
    split at h <;> cases h
    next args since hi =>
      exact inv_read hinv (by rintro r' ⟨⟩; exact (hinv.readers i _ hi).1)
  | load i =>
    simp only [step] at h
    split at h <;> cases h
    next args hi =>
      have hasked : args ∈ s.asked := hinv.readers i _ hi
      exact inv_read hinv (by rintro r' ⟨⟩; exact hasked)
  | store i =>
    simp only [step] at h
    split at h <;> cases h
    next e hi =>
      obtain ⟨hepoch, hbegun⟩ := hok e hi
      exact inv_read (inv_put hinv (hinv.readers i _ hi) hepoch hbegun) (by rintro r' ⟨⟩)
  | skip i =>
    simp only [step] at h
    split at h <;> cases h
    exact inv_read hinv (by rintro r' ⟨⟩)
  | expire key =>
    cases h
    exact inv_drop hinv [key]
  | write i m => exact inv_write hinv hok h
  | scan i => exact inv_scan hinv h
  | remove i keys => exact inv_remove hinv h
  | finish i => exact inv_finish hinv h
  | abandon i => exact hok.elim
  | commit i rows => exact inv_commit hinv h
  | rollback i =>
    simp only [step] at h
    split at h <;> cases h
    exact inv_wait hinv (by rintro w' ⟨⟩) (by rintro w' ⟨⟩)

/-- In a timely run the cache answers as the committed rows would. -/
theorem answers_good {rows : δ} (h : Exec (step P) (Timely P) (start rows) s) :
    ∀ a ∈ s.answers, a.Good :=
  (h.invariant (inv_start rows) fun _ a _ hinv hok hst => inv_step a hinv hok hst).answers

end EvalEngine.CacheAside
