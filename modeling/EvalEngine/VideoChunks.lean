import EvalEngine.AnalysisClaims
import EvalEngine.ByteRanges

namespace EvalEngine.VideoChunks

open EvalEngine.TaskReports EvalEngine.ByteRanges

/-- 1 MB. -/
def chunkSize : ℕ := 1 * 1024 * 1024

/-- One entry of `transcribed_segments`, in seconds. -/
structure Segment where
  startTime : ℚ
  endTime : ℚ
  text : String
  deriving DecidableEq, Repr

/-- The range requests sent so far, and what has come of them. -/
structure Stream where
  requested : List ByteRange := []
  transcribedSegments : List Segment := []
  processedChunks : ℕ := 0

/-- What the `Range` header of the request for a chunk asks for. -/
def byteRange (contentLength chunkIdx : ℕ) : ByteRange :=
  let startByte := chunkIdx * chunkSize
  ⟨startByte, min (startByte + chunkSize - 1) (contentLength - 1)⟩

def segment (chunkIdx : ℕ) : Segment :=
  let segmentTime : ℚ := (chunkIdx * chunkSize : ℕ) / (128 * 1024)
  ⟨segmentTime, segmentTime + chunkSize / (128 * 1024),
    "[Transcribed segment " ++ toString (chunkIdx + 1) ++ "]"⟩

/-- One turn of the loop. A request that fails is logged, and its chunk is left out. -/
def Stream.fetch (contentLength : ℕ) (readable : ℕ → Bool) (s : Stream) (chunkIdx : ℕ) : Stream :=
  let requested := s.requested ++ [byteRange contentLength chunkIdx]
  if readable chunkIdx then
    { requested
      transcribedSegments := s.transcribedSegments ++ [segment chunkIdx]
      processedChunks := s.processedChunks + 1 }
  else { s with requested }

/-- Step 2 of `_analyze_video`. -/
def streamChunks (contentLength : ℕ) (readable : ℕ → Bool) : Stream :=
  (List.range (min (totalChunks contentLength) 100)).foldl (Stream.fetch contentLength readable) {}

variable {contentLength chunkIdx : ℕ} {readable : ℕ → Bool} {s : Stream}

@[simp] theorem requested_fetch :
    (s.fetch contentLength readable chunkIdx).requested = s.requested ++ [byteRange contentLength chunkIdx] := by
  unfold Stream.fetch
  cases readable chunkIdx <;> rfl

theorem segments_fetch : (s.fetch contentLength readable chunkIdx).transcribedSegments =
    s.transcribedSegments ++ if readable chunkIdx then [segment chunkIdx] else [] := by
  unfold Stream.fetch
  cases readable chunkIdx <;> simp

theorem processed_fetch : (s.fetch contentLength readable chunkIdx).processedChunks =
    s.processedChunks + if readable chunkIdx then 1 else 0 := by
  unfold Stream.fetch
  cases readable chunkIdx <;> simp

theorem requested_foldl (idxs : List ℕ) (s : Stream) :
    (idxs.foldl (Stream.fetch contentLength readable) s).requested =
      s.requested ++ idxs.map (byteRange contentLength) := by
  induction idxs generalizing s with
  | nil => simp
  | cons i idxs ih => simp [ih]

theorem segments_foldl (idxs : List ℕ) (s : Stream) :
    (idxs.foldl (Stream.fetch contentLength readable) s).transcribedSegments =
      s.transcribedSegments ++ (idxs.filter readable).map segment := by
  induction idxs generalizing s with
  | nil => simp
  | cons i idxs ih =>
    rw [List.foldl_cons, ih, segments_fetch]
    by_cases hi : readable i <;> simp [hi]

theorem processed_foldl (idxs : List ℕ) (s : Stream) :
    (idxs.foldl (Stream.fetch contentLength readable) s).processedChunks =
      s.processedChunks + (idxs.filter readable).length := by
  induction idxs generalizing s with
  | nil => simp
  | cons i idxs ih =>
    rw [List.foldl_cons, ih, processed_fetch]
    by_cases hi : readable i <;> simp [hi]
    omega

/-- Which ranges are requested does not depend on which of the requests succeed. -/
theorem requested_streamChunks (contentLength : ℕ) (readable : ℕ → Bool) :
    (streamChunks contentLength readable).requested =
      chunks chunkSize contentLength (min (totalChunks contentLength) 100) := by
  unfold streamChunks
  rw [requested_foldl]
  rfl

/-- One segment is transcribed for every chunk that is processed. -/
theorem processed_streamChunks (contentLength : ℕ) (readable : ℕ → Bool) :
    (streamChunks contentLength readable).processedChunks =
      (streamChunks contentLength readable).transcribedSegments.length := by
  unfold streamChunks
  rw [processed_foldl, segments_foldl]
  simp

/-- An analysis makes its claim when some segment was transcribed. -/
theorem transcribed_iff (a : VideoAnswers) (contentLength : ℕ) :
    AnalysisClaims.transcribed a contentLength = true ↔
      (streamChunks contentLength a.readable).transcribedSegments ≠ [] := by
  unfold streamChunks AnalysisClaims.transcribed
  rw [segments_foldl]
  simp [List.filter_eq_nil_iff, and_assoc]

theorem chunkSize_pos : 0 < chunkSize := by decide

/-- No chunk begins after the end of the file. -/
theorem begins_in_file (hn : 1 ≤ contentLength) :
    ∀ i < min (totalChunks contentLength) 100, i * chunkSize < contentLength := by
  intro i hi
  have hlt : i < max 1 (contentLength / chunkSize) := lt_of_lt_of_le hi (min_le_left _ _)
  rcases lt_max_iff.1 hlt with hzero | hdiv
  · obtain rfl : i = 0 := by omega
    omega
  · exact (Nat.lt_div_iff_mul_lt chunkSize_pos).1 hdiv |>.trans_le (by omega)

/-- The bytes that the chunks reach are those of the file, up to the cap, unless
a part of a chunk is left over at the end. -/
theorem reach_iff (hn : 1 ≤ contentLength) :
    min contentLength (min (totalChunks contentLength) 100 * chunkSize) = min contentLength (100 * chunkSize) ↔
      contentLength < chunkSize ∨ chunkSize ∣ contentLength ∨ 100 * chunkSize < contentLength := by
  unfold totalChunks chunkSize
  omega

/-- The ranges that `_analyze_video` requests cover the file, or its first 100
MiB, exactly for the lengths that leave no last part of a chunk over. -/
theorem streamChunks_covers_iff (contentLength : ℕ) (readable : ℕ → Bool) (hn : 1 ≤ contentLength) :
    Covers (streamChunks contentLength readable).requested (min contentLength (100 * chunkSize)) ↔
      contentLength < chunkSize ∨ chunkSize ∣ contentLength ∨ 100 * chunkSize < contentLength := by
  rw [requested_streamChunks, covers_chunks_iff chunkSize_pos hn (begins_in_file hn)]
  exact reach_iff hn

theorem three_chunks_covered : 1 ≤ 3145728 ∧
    Covers (streamChunks 3145728 (fun _ => true)).requested (min 3145728 (100 * chunkSize)) :=
  ⟨by decide, (streamChunks_covers_iff 3145728 _ (by decide)).2 (Or.inr (Or.inl (by decide)))⟩

/-- Of one and a half chunks only the first is requested. -/
theorem half_a_chunk_left_over :
    (streamChunks 1572864 (fun _ => true)).requested = [⟨0, 1048575⟩] ∧
      ¬ Covers (streamChunks 1572864 (fun _ => true)).requested (min 1572864 (100 * chunkSize)) := by
  have hrequested : (streamChunks 1572864 (fun _ => true)).requested = [⟨0, 1048575⟩] := by decide
  refine ⟨hrequested, ?_⟩
  intro hcovers
  have hlast : 1572863 ∈ Set.Iio (min 1572864 (100 * chunkSize)) := by
    show 1572863 < min 1572864 (100 * chunkSize)
    decide
  rw [← hcovers.exactly, hrequested] at hlast
  obtain ⟨r, hr, hk⟩ := hlast
  obtain rfl := List.mem_singleton.1 hr
  have hle : 1572863 ≤ 1048575 := hk.2
  omega

end EvalEngine.VideoChunks
