import Mathlib.Data.Set.Lattice
import Mathlib.Order.CompletePartialOrder
import Mathlib.Order.Interval.Set.Basic
import Mathlib.Order.Lattice.Nat
import Mathlib.Order.MinMax

namespace EvalEngine.ByteRanges

/-- A range of bytes. Both ends belong to it, as in an HTTP header. -/
structure ByteRange where
  start : ℕ
  stop : ℕ
  deriving DecidableEq, Repr

def ByteRange.bytes (r : ByteRange) : Set ℕ := Set.Icc r.start r.stop

/-- The ranges lie one after the other and make up the first `size` bytes. -/
structure Covers (ranges : List ByteRange) (size : ℕ) : Prop where
  nonempty : ∀ r ∈ ranges, r.bytes.Nonempty
  disjoint : ranges.Pairwise (fun r r' => Disjoint r.bytes r'.bytes)
  increasing : ranges.Pairwise (fun r r' => r.start < r'.start)
  exactly : {k | ∃ r ∈ ranges, k ∈ r.bytes} = Set.Iio size

/-- Chunk number `i` of `n` bytes in chunks of `c`. -/
def chunk (c n i : ℕ) : ByteRange := ⟨i * c, min (i * c + c - 1) (n - 1)⟩

def chunks (c n m : ℕ) : List ByteRange := (List.range m).map (chunk c n)

variable {c n m size i j k : ℕ}

theorem mem_chunks {r : ByteRange} : r ∈ chunks c n m ↔ ∃ i < m, chunk c n i = r := by
  simp [chunks]

/-- A byte is in the chunk that its offset falls into. -/
theorem mem_chunk (hc : 0 < c) (hn : 0 < n) : k ∈ (chunk c n i).bytes ↔ k < n ∧ k / c = i := by
  have hdiv : k / c = i ↔ i * c ≤ k ∧ k ≤ i * c + c - 1 := Nat.div_eq_iff hc
  rw [hdiv]
  show i * c ≤ k ∧ k ≤ min (i * c + c - 1) (n - 1) ↔ _
  omega

theorem mem_some_chunk (hc : 0 < c) (hn : 0 < n) :
    (∃ r ∈ chunks c n m, k ∈ r.bytes) ↔ k < min n (m * c) := by
  rw [lt_min_iff, ← Nat.div_lt_iff_lt_mul hc]
  constructor
  · rintro ⟨r, hr, hk⟩
    obtain ⟨i, hi, rfl⟩ := mem_chunks.1 hr
    obtain ⟨hkn, rfl⟩ := (mem_chunk hc hn).1 hk
    exact ⟨hkn, hi⟩
  · rintro ⟨hkn, hlt⟩
    exact ⟨chunk c n (k / c), mem_chunks.2 ⟨_, hlt, rfl⟩, (mem_chunk hc hn).2 ⟨hkn, rfl⟩⟩

theorem chunks_disjoint (hc : 0 < c) (hn : 0 < n) (h : i ≠ j) :
    Disjoint (chunk c n i).bytes (chunk c n j).bytes := by
  rw [Set.disjoint_left]
  intro k hi hj
  exact h (((mem_chunk hc hn).1 hi).2.symm.trans ((mem_chunk hc hn).1 hj).2)

theorem chunk_nonempty (hc : 0 < c) (h : i * c < n) : (chunk c n i).bytes.Nonempty :=
  ⟨i * c, (mem_chunk hc (Nat.zero_lt_of_lt h)).2 ⟨h, Nat.mul_div_cancel i hc⟩⟩

/-- As long as no chunk begins after the end, how many there are decides what they cover. -/
theorem covers_chunks_iff (hc : 0 < c) (hn : 0 < n) (hm : ∀ i < m, i * c < n) :
    Covers (chunks c n m) size ↔ min n (m * c) = size := by
  have hbytes : {k | ∃ r ∈ chunks c n m, k ∈ r.bytes} = Set.Iio (min n (m * c)) := by
    ext k
    exact mem_some_chunk hc hn
  constructor
  · intro h
    exact Set.Iio_inj.1 (hbytes.symm.trans h.exactly)
  · rintro rfl
    refine ⟨?_, ?_, ?_, hbytes⟩
    · intro r hr
      obtain ⟨i, hi, rfl⟩ := mem_chunks.1 hr
      exact chunk_nonempty hc (hm i hi)
    · refine List.pairwise_map.2 (List.pairwise_lt_range.imp ?_)
      intro i j hlt
      exact chunks_disjoint hc hn hlt.ne
    · refine List.pairwise_map.2 (List.pairwise_lt_range.imp ?_)
      intro i j hlt
      exact Nat.mul_lt_mul_of_pos_right hlt hc

end EvalEngine.ByteRanges
