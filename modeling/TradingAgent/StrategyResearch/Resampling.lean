import Mathlib.Algebra.BigOperators.Group.List.Lemmas
import Mathlib.Data.List.Forall2
import Mathlib.Data.List.GetD
import Mathlib.Data.Nat.ModEq
import TradingAgent.Library.Interpolation
import TradingAgent.StrategyResearch.Statistics

/-!
# What is resampled

Samples by moving blocks have the size of the sample, and samples by clusters consist of whole
clusters. The blocks of a session consist of consecutive values (`IsRuns`) only if all draws for a
block are the same (`OneDrawPerBlock`), as the code draws anew for every value. The interval lies
between the least and the greatest mean of a sample (`IsWellFormed`).
-/

namespace TradingAgent.StrategyResearch

/-! ## Blocks -/

theorem blockSize_pos {n : ℕ} (hn : 0 < n) : 0 < blockSize n :=
  lt_min hn (lt_of_lt_of_le two_pos (le_max_left _ _))

theorem le_blockCount_mul (n : ℕ) : n ≤ blockCount n * blockSize n := by
  rcases n.eq_zero_or_pos with rfl | hn
  · exact Nat.zero_le _
  have hsize := blockSize_pos hn
  have hdiv := Nat.div_add_mod (n + blockSize n - 1) (blockSize n)
  have hmod := Nat.mod_lt (n + blockSize n - 1) hsize
  have hcomm := Nat.mul_comm (blockSize n) (blockCount n)
  rw [blockCount] at hcomm ⊢
  omega

/-- The rows of a table, one after another. -/
theorem flatten_map_range {α : Type*} (f : ℕ → α) (count size : ℕ) :
    ((List.range count).map fun b => (List.range size).map fun j => f (b * size + j)).flatten =
      (List.range (count * size)).map f := by
  induction count with
  | zero => simp
  | succ count ih =>
    rw [List.range_succ, List.map_append, List.flatten_append, ih, Nat.succ_mul, List.range_add,
      List.map_append]
    simp [Function.comp_def]

/-- The rows of a table, up to a length. -/
theorem take_flatten_map_range {α : Type*} (f : ℕ → ℕ → α) {count size n : ℕ} (hsize : 0 < size)
    (hn : n ≤ count * size) :
    ((List.range count).map fun b => (List.range size).map (f b)).flatten.take n =
      (List.range n).map fun i => f (i / size) (i % size) := by
  have hrows : ((List.range count).map fun b => (List.range size).map (f b)) =
      (List.range count).map fun b => (List.range size).map fun j =>
        f ((b * size + j) / size) ((b * size + j) % size) := by
    refine List.map_congr_left fun b _ => List.map_congr_left fun j hj => ?_
    have hj := List.mem_range.1 hj
    rw [Nat.mul_comm, Nat.mul_add_div hsize, Nat.div_eq_of_lt hj, Nat.mul_add_mod,
      Nat.mod_eq_of_lt hj, Nat.add_zero]
  rw [hrows, flatten_map_range fun i => f (i / size) (i % size), ← List.map_take,
    List.take_range, Nat.min_eq_left hn]

section Positions

variable {generator : Generator} {n call : ℕ}

/-- Positions that are runs of consecutive ones, around the end of the session, each of the size
    of a block and from a drawn position on. -/
def IsRuns (generator : Generator) (n : ℕ) (positions : List ℕ) : Prop :=
  ∃ calls : ℕ → ℕ, positions = ((List.range (blockCount n)).map fun block =>
    (List.range (blockSize n)).map fun offset =>
      (generator.randrange (calls block) n + offset) % n).flatten.take n

theorem blockPositions_eq : blockPositions generator n call =
    ((List.range (blockSize n)).map fun offset =>
      (generator.randrange (call + offset) n + offset) % n, call + blockSize n) := by
  have hdraw : ∀ offset call, (do
      let start ← Draws.randrange generator n
      return (start + offset) % n : Draws ℕ) call =
      ((generator.randrange call n + offset) % n, call + 1) := fun _ _ => rfl
  rw [blockPositions, Draws.run_mapM_range hdraw]
  simp

/-- How often a session is drawn from, for one sample. -/
def drawCount (n : ℕ) : ℕ := blockCount n * blockSize n

theorem samplePositions_eq_take : samplePositions generator n call =
    ((((List.range (blockCount n)).map fun block => (List.range (blockSize n)).map fun offset =>
      (generator.randrange (call + block * blockSize n + offset) n + offset) % n).flatten.take n),
      call + drawCount n) := by
  have hblock : ∀ _ : ℕ, ∀ call, blockPositions generator n call = _ :=
    fun _ _ => blockPositions_eq
  have hrun : samplePositions generator n call =
      ((((List.range (blockCount n)).mapM fun _ => blockPositions generator n) call).1.flatten.take
        n, (((List.range (blockCount n)).mapM fun _ => blockPositions generator n) call).2) := rfl
  rw [hrun, Draws.run_mapM_range hblock, drawCount]

theorem samplePositions_eq (hn : 0 < n) : (samplePositions generator n call).1 =
    (List.range n).map fun i => (generator.randrange (call + i) n + i % blockSize n) % n := by
  rw [samplePositions_eq_take, take_flatten_map_range (fun block offset =>
    (generator.randrange (call + block * blockSize n + offset) n + offset) % n)
    (blockSize_pos hn) (le_blockCount_mul n)]
  refine List.map_congr_left fun i _ => ?_
  rw [Nat.add_assoc, Nat.div_add_mod']

theorem isRuns_iff (hn : 0 < n) {positions : List ℕ} : IsRuns generator n positions ↔
    ∃ calls : ℕ → ℕ, positions = (List.range n).map fun i =>
      (generator.randrange (calls (i / blockSize n)) n + i % blockSize n) % n := by
  refine exists_congr fun calls => ?_
  rw [take_flatten_map_range _ (blockSize_pos hn) (le_blockCount_mul n)]

/-- The positions drawn from a session are runs exactly if the draws for a block are the same. -/
theorem isRuns_samplePositions_iff (hn : 0 < n) :
    IsRuns generator n (samplePositions generator n call).1 ↔
      ∀ i < n, generator.randrange (call + i) n =
        generator.randrange (call + i / blockSize n * blockSize n) n := by
  rw [isRuns_iff hn, samplePositions_eq hn]
  simp only [List.map_inj_left, List.mem_range]
  constructor
  · rintro ⟨calls, hcalls⟩ i hi
    -- Both draws are the one that the block of `i` starts at.
    have hstart : ∀ i < n, generator.randrange (call + i) n =
        generator.randrange (calls (i / blockSize n)) n := fun i hi => by
      have hmod : Nat.ModEq n _ _ := hcalls i hi
      have hdraw := Nat.ModEq.add_right_cancel' _ hmod
      rwa [Nat.ModEq, Nat.mod_eq_of_lt (generator.randrange_lt _ hn),
        Nat.mod_eq_of_lt (generator.randrange_lt _ hn)] at hdraw
    have hfirst : i / blockSize n * blockSize n < n :=
      lt_of_le_of_lt (Nat.div_mul_le_self i _) hi
    rw [hstart i hi, hstart _ hfirst, Nat.mul_div_cancel _ (blockSize_pos hn)]
  · intro hsame
    refine ⟨fun block => call + block * blockSize n, fun i hi => ?_⟩
    rw [hsame i hi]

/-! ## Samples by moving blocks -/

theorem forall₂_zipWith_iff {α β γ : Type*} {R : α → γ → Prop} {f : α → β → γ} {l : List α}
    {m : List β} (hlength : m.length = l.length) :
    List.Forall₂ R l (List.zipWith f l m) ↔ ∀ pair ∈ l.zip m, R pair.1 (f pair.1 pair.2) := by
  induction l generalizing m with
  | nil => simp
  | cons a l ih =>
    obtain ⟨b, m, rfl⟩ := List.exists_cons_of_length_eq_add_one hlength
    simp [ih (Nat.succ.inj hlength)]

/-- The sessions, by their length and the call that drawing from them starts at, in a
    repetition. -/
def sessionCalls (lengths : List ℕ) (repetition : ℕ) : List (ℕ × ℕ) :=
  lengths.zip (Draws.callsAt drawCount (repetition * (lengths.map drawCount).sum) lengths)

/-- In every repetition, all draws for a block of a session that are kept are the same. -/
def OneDrawPerBlock (generator : Generator) (lengths : List ℕ) (repetitions : ℕ) : Prop :=
  ∀ repetition < repetitions, ∀ session ∈ sessionCalls lengths repetition, ∀ i < session.1,
    generator.randrange (session.2 + i) session.1 =
      generator.randrange (session.2 + i / blockSize session.1 * blockSize session.1) session.1

theorem replicatePositions_eq (lengths : List ℕ) : replicatePositions generator lengths call =
    (List.zipWith (fun n call => (samplePositions generator n call).1) lengths
      (Draws.callsAt drawCount call lengths), call + (lengths.map drawCount).sum) := by
  rw [replicatePositions, Draws.run_mapM fun n call => ?_]
  rw [samplePositions_eq_take]

theorem movingBlockPositions_eq (lengths : List ℕ) (repetitions : ℕ) :
    (movingBlockPositions generator lengths repetitions 0).1 =
      (List.range repetitions).map fun repetition => (sessionCalls lengths repetition).map
        fun session => (samplePositions generator session.1 session.2).1 := by
  have hreplicate : ∀ _ : ℕ, ∀ call, replicatePositions generator lengths call = _ :=
    fun _ _ => replicatePositions_eq lengths
  rw [movingBlockPositions, Draws.run_mapM_range hreplicate]
  refine List.map_congr_left fun repetition _ => ?_
  rw [sessionCalls, Nat.zero_add, List.map_zip_eq_zipWith]
  rfl

theorem movingBlockPositions_isRuns_iff {lengths : List ℕ} (hpos : ∀ n ∈ lengths, 0 < n)
    (repetitions : ℕ) :
    (∀ positions ∈ (movingBlockPositions generator lengths repetitions 0).1,
      List.Forall₂ (IsRuns generator) lengths positions) ↔
      OneDrawPerBlock generator lengths repetitions := by
  rw [movingBlockPositions_eq]
  simp only [List.forall_mem_map, List.mem_range]
  refine forall₂_congr fun repetition _ => ?_
  rw [sessionCalls, List.map_zip_eq_zipWith, forall₂_zipWith_iff (Draws.length_callsAt _ _ _)]
  refine forall₂_congr fun session hsession => ?_
  exact isRuns_samplePositions_iff (hpos _ (List.of_mem_zip hsession).1)

end Positions

/-! ## Sessions -/

theorem mem_foldl_distinct {key : String} (keys seen : List String) :
    key ∈ keys.foldl (fun seen key => if key ∈ seen then seen else seen ++ [key]) seen ↔
      key ∈ seen ∨ key ∈ keys := by
  induction keys generalizing seen with
  | nil => simp
  | cons head keys ih =>
    rw [List.foldl_cons, ih, List.mem_cons]
    split_ifs with hmem
    · constructor
      · exact Or.imp_right .inr
      · rintro (h | rfl | h)
        exacts [.inl h, .inl hmem, .inr h]
    · rw [List.mem_append, List.mem_singleton, or_assoc]

@[simp] theorem mem_distinctKeys {key : String} {keys : List String} :
    key ∈ distinctKeys keys ↔ key ∈ keys := by
  simp [distinctKeys, mem_foldl_distinct]

theorem nodup_distinctKeys (keys : List String) : (distinctKeys keys).Nodup := by
  have hgen : ∀ (keys seen : List String), seen.Nodup →
      (keys.foldl (fun seen key => if key ∈ seen then seen else seen ++ [key]) seen).Nodup := by
    intro keys
    induction keys with
    | nil => exact fun _ h => h
    | cons head keys ih =>
      intro seen hseen
      refine ih _ ?_
      dsimp only
      split_ifs with hmem
      · exact hseen
      · exact hseen.append (List.nodup_singleton head) (by simpa using hmem)
  exact hgen keys [] List.nodup_nil

section Values

variable {values : List ℚ} {keys : List String} (hlength : keys.length = values.length)
include hlength

theorem length_valuesOf (key : String) : (valuesOf values keys key).length = keys.count key := by
  induction values generalizing keys with
  | nil =>
    obtain rfl := List.length_eq_zero_iff.1 hlength
    rfl
  | cons value values ih =>
    obtain ⟨head, keys, rfl⟩ := List.exists_cons_of_length_eq_add_one hlength
    have htail := ih (Nat.succ.inj hlength)
    rw [valuesOf] at htail ⊢
    rw [List.zip_cons_cons, List.filterMap_cons, List.count_cons]
    by_cases hkey : head = key
    · simp [hkey, htail]
    · simp [hkey, htail]

theorem valuesOf_ne_nil {key : String} (hkey : key ∈ keys) : valuesOf values keys key ≠ [] := by
  rw [← List.length_pos_iff, length_valuesOf hlength]
  exact List.count_pos_iff.2 hkey

theorem sum_length_grouped : ((grouped values keys).map List.length).sum = values.length := by
  have hperm : (distinctKeys keys).Perm keys.dedup :=
    (List.perm_ext_iff_of_nodup (nodup_distinctKeys keys) keys.nodup_dedup).2 fun key => by simp
  rw [← hlength, ← List.sum_map_count_dedup_eq_length keys, grouped, List.map_map]
  rw [← (hperm.map fun key => keys.count key).sum_eq]
  exact congrArg List.sum (List.map_congr_left fun key _ => length_valuesOf hlength key)

theorem length_grouped_pos : ∀ n ∈ (grouped values keys).map List.length, 0 < n := by
  simp only [grouped, List.map_map, List.forall_mem_map, mem_distinctKeys]
  exact fun key hkey => List.length_pos_iff.2 (valuesOf_ne_nil hlength hkey)

omit hlength in
theorem length_valuesAt {sessions : List (List ℚ)} {positions : List (List ℕ)}
    (h : List.Forall₂ (fun session l => l.length = session.length) sessions positions) :
    (valuesAt sessions positions).length = (sessions.map List.length).sum := by
  induction h with
  | nil => rfl
  | cons hhead _ ih =>
    rw [valuesAt] at ih ⊢
    rw [List.zipWith_cons_cons, List.flatten_cons, List.length_append, ih, List.length_map, hhead]
    simp

/-- A sample by moving blocks has as many values as there are. -/
theorem length_of_mem_movingBlockSamples {policy : BootstrapPolicy} {sampled : List ℚ}
    (h : sampled ∈ movingBlockSamples values keys policy) : sampled.length = values.length := by
  rw [movingBlockSamples, movingBlockPositions_eq, List.map_map] at h
  obtain ⟨repetition, -, rfl⟩ := List.mem_map.1 h
  have hlengths : List.Forall₂ (fun n (l : List ℕ) => l.length = n)
      ((grouped values keys).map List.length)
      ((sessionCalls ((grouped values keys).map List.length) repetition).map fun session =>
        (samplePositions policy.generator session.1 session.2).1) := by
    rw [sessionCalls, List.map_zip_eq_zipWith, forall₂_zipWith_iff (Draws.length_callsAt _ _ _)]
    intro session hsession
    rw [Function.curry, samplePositions_eq (length_grouped_pos hlength _ (List.of_mem_zip hsession).1)]
    simp
  rw [Function.comp_apply, length_valuesAt (List.forall₂_map_left_iff.1 hlengths),
    sum_length_grouped hlength]

/-! ## Samples by clusters -/

/-- A sample by clusters is made of whole clusters, as many as there are keys. -/
def IsWholeClusters (values : List ℚ) (keys : List String) (sampled : List ℚ) : Prop :=
  ∃ chosen : List String, chosen.length = (distinctKeys keys).length ∧
    (∀ key ∈ chosen, key ∈ keys) ∧ sampled = chosen.flatMap (valuesOf values keys)

omit hlength in
theorem clusterSample_eq (generator : Generator) (call : ℕ) :
    clusterSample generator values keys call =
      ((List.zipWith (fun _ call => (distinctKeys keys).getD
          (generator.randrange call (distinctKeys keys).length) "") (distinctKeys keys)
          (Draws.callsAt (fun _ => 1) call (distinctKeys keys))).flatMap (valuesOf values keys),
        call + ((distinctKeys keys).map fun _ => 1).sum) := by
  have hdraw : ∀ _ : String, ∀ call, drawKey generator (distinctKeys keys) call =
      ((distinctKeys keys).getD (generator.randrange call (distinctKeys keys).length) "",
        call + 1) := fun _ _ => rfl
  have hrun : clusterSample generator values keys call =
      ((((distinctKeys keys).mapM fun _ => drawKey generator (distinctKeys keys)) call).1.flatMap
        (valuesOf values keys),
        (((distinctKeys keys).mapM fun _ => drawKey generator (distinctKeys keys)) call).2) := rfl
  rw [hrun, Draws.run_mapM hdraw]

omit hlength in
theorem isWholeClusters_of_mem {policy : BootstrapPolicy} {sampled : List ℚ}
    (h : sampled ∈ clusterSamples values keys policy) : IsWholeClusters values keys sampled := by
  have hsample : ∀ _ : ℕ, ∀ call, clusterSample policy.generator values keys call = _ :=
    fun _ call => clusterSample_eq policy.generator call
  rw [clusterSamples, Draws.run_mapM_range hsample] at h
  obtain ⟨repetition, -, rfl⟩ := List.mem_map.1 h
  refine ⟨_, ?_, ?_, rfl⟩
  · simp [Draws.length_callsAt]
  · intro key hkey
    obtain ⟨i, hi, rfl⟩ := List.mem_iff_getElem.1 hkey
    rw [List.getElem_zipWith]
    rw [List.length_zipWith, lt_min_iff] at hi
    have hdrawn := policy.generator.randrange_lt
      ((Draws.callsAt (fun _ => 1) (0 + repetition * ((distinctKeys keys).map fun _ => 1).sum)
        (distinctKeys keys))[i]) (Nat.pos_of_ne_zero (Nat.ne_zero_of_lt hi.1))
    rw [List.getD_eq_getElem _ _ hdrawn]
    exact mem_distinctKeys.1 (List.getElem_mem hdrawn)

theorem ne_nil_of_isWholeClusters (hkeys : keys ≠ []) {sampled : List ℚ}
    (h : IsWholeClusters values keys sampled) : sampled ≠ [] := by
  obtain ⟨chosen, hcount, hmem, rfl⟩ := h
  obtain ⟨key, hkey⟩ := List.exists_mem_of_ne_nil _ hkeys
  have hpos : 0 < chosen.length := by
    rw [hcount]
    exact List.length_pos_of_mem (mem_distinctKeys.2 hkey)
  obtain ⟨first, hfirst⟩ := List.exists_mem_of_length_pos hpos
  rw [ne_eq, List.flatMap_eq_nil_iff]
  exact fun hnil => valuesOf_ne_nil hlength (hmem first hfirst) (hnil first hfirst)

end Values

/-! ## Intervals -/

section Quantile

variable {estimates : List ℚ} (hne : estimates ≠ []) {p : ℚ}
include hne

theorem upperIndex_lt : upperIndex estimates p < estimates.length := by
  have hlength := List.length_pos_iff.2 hne
  exact lt_of_le_of_lt (min_le_right _ _) (Nat.sub_lt hlength one_pos)

theorem position_le (hp : p ≤ 1) : position estimates p ≤ (estimates.length - 1 : ℕ) := by
  rw [Nat.cast_sub (List.length_pos_iff.2 hne), Nat.cast_one, position]
  refine mul_le_of_le_one_left ?_ hp
  have hone : (1 : ℚ) ≤ estimates.length := by
    exact_mod_cast Nat.one_le_iff_ne_zero.2 (List.length_pos_iff.2 hne).ne'
  linarith

theorem lowerIndex_lt (hp : p ≤ 1) : lowerIndex estimates p < estimates.length := by
  have hlength := List.length_pos_iff.2 hne
  have hle : lowerIndex estimates p ≤ estimates.length - 1 :=
    Nat.floor_le_of_le (position_le hne hp)
  omega

/-- The estimates, the last of which goes on. -/
def extended (estimates : List ℚ) (i : ℕ) : ℚ := estimates.getD (min i (estimates.length - 1)) 0

theorem extended_mem (i : ℕ) : extended estimates i ∈ estimates := by
  have hlength := List.length_pos_iff.2 hne
  have hlt : min i (estimates.length - 1) < estimates.length :=
    lt_of_le_of_lt (min_le_right _ _) (Nat.sub_lt hlength one_pos)
  rw [extended, List.getD_eq_getElem _ _ hlt]
  exact List.getElem_mem hlt

theorem extended_mono (hsorted : estimates.Pairwise (· ≤ ·)) : Monotone (extended estimates) := by
  intro i j hij
  have hlength := List.length_pos_iff.2 hne
  have hlt : ∀ i, min i (estimates.length - 1) < estimates.length := fun i =>
    lt_of_le_of_lt (min_le_right _ _) (Nat.sub_lt hlength one_pos)
  rw [extended, extended, List.getD_eq_getElem _ _ (hlt i), List.getD_eq_getElem _ _ (hlt j)]
  exact hsorted.rel_get_of_le (min_le_min_right _ hij : (⟨_, hlt i⟩ : Fin _) ≤ ⟨_, hlt j⟩)

/-- A quantile interpolates between the estimates. -/
theorem quantile_eq (hp : p ≤ 1) :
    quantile estimates p = .ok (interpolate (extended estimates) (position estimates p)) := by
  have hlower := lowerIndex_lt hne hp
  have hupper : upperIndex estimates p < estimates.length := upperIndex_lt hne
  rw [quantile, List.getElem?_eq_getElem hlower, List.getElem?_eq_getElem hupper, interpolate]
  show Except.ok _ = Except.ok _
  rw [show ⌊position estimates p⌋₊ = lowerIndex estimates p from rfl, extended, extended]
  rw [Nat.min_eq_left (Nat.le_sub_one_of_lt hlower), ← upperIndex,
    List.getD_eq_getElem _ _ hlower, List.getD_eq_getElem _ _ hupper]

end Quantile

/-- The ends of an interval are in order, and between the least and the greatest estimate. -/
structure IsWellFormed (estimates : List ℚ) (interval : BootstrapInterval) : Prop where
  lower_le_upper : interval.lower ≤ interval.upper
  le_lower : ∃ smallest ∈ estimates, (∀ e ∈ estimates, smallest ≤ e) ∧ smallest ≤ interval.lower
  upper_le : ∃ largest ∈ estimates, (∀ e ∈ estimates, e ≤ largest) ∧ interval.upper ≤ largest

theorem isWellFormed_of_quantiles {estimates : List ℚ} (hne : estimates ≠ [])
    (hsorted : estimates.Pairwise (· ≤ ·)) {p q : ℚ} (hp : 0 ≤ p) (hpq : p ≤ q) (hq : q ≤ 1)
    (estimate : ℚ) : IsWellFormed estimates
      ⟨estimate, interpolate (extended estimates) (position estimates p),
        interpolate (extended estimates) (position estimates q)⟩ := by
  have hlength := List.length_pos_iff.2 hne
  have hone : (1 : ℚ) ≤ estimates.length := by exact_mod_cast hlength
  have hpos : ∀ {p : ℚ}, 0 ≤ p → 0 ≤ position estimates p := fun hp =>
    mul_nonneg hp (by linarith)
  have hmono := extended_mono hne hsorted
  have hbetween : ∀ e ∈ estimates,
      extended estimates 0 ≤ e ∧ e ≤ extended estimates (estimates.length - 1) := by
    intro e he
    obtain ⟨i, hi, rfl⟩ := List.mem_iff_getElem.1 he
    have hi' : i ≤ estimates.length - 1 := by omega
    have hself : extended estimates i = estimates[i] := by
      rw [extended, Nat.min_eq_left hi', List.getD_eq_getElem]
    exact ⟨hself ▸ hmono (Nat.zero_le i), hself ▸ hmono hi'⟩
  refine ⟨?_, ?_, ?_⟩
  · exact interpolate_mono hmono (hpos hp)
      (mul_le_mul_of_nonneg_right hpq (by linarith))
  · refine ⟨_, extended_mem hne 0, fun e he => (hbetween e he).1, ?_⟩
    exact (hmono (Nat.zero_le _)).trans (le_interpolate hmono (hpos hp))
  · refine ⟨_, extended_mem hne (estimates.length - 1), fun e he => (hbetween e he).2, ?_⟩
    -- After the last estimate, the interpolation stays with it.
    have hlast := interpolate_mono hmono (hpos (hp.trans hpq)) (position_le hne hq)
    have hend : interpolate (extended estimates) ((estimates.length - 1 : ℕ) : ℚ) =
        extended estimates (estimates.length - 1) := by
      rw [interpolate, Nat.floor_natCast, sub_self, mul_zero, add_zero]
    exact hend ▸ hlast

/-! ## Resampled means -/

section Mean

variable {values : List ℚ} {keys : List String} {policy : BootstrapPolicy}
  {method : ResamplingMethod}

/-- What resampling is to keep of the values, and what the interval is to be. -/
structure MeetsResampling (values : List ℚ) (keys : List String) (policy : BootstrapPolicy)
    (method : ResamplingMethod) : Prop where
  /-- The positions of each session are runs. -/
  runs : method = .sessionMovingBlock → ∀ positions ∈ (movingBlockPositions policy.generator
    ((grouped values keys).map List.length) policy.repetitions 0).1,
    List.Forall₂ (IsRuns policy.generator) ((grouped values keys).map List.length) positions
  sizes : method = .sessionMovingBlock →
    ∀ sampled ∈ samples values keys policy method, sampled.length = values.length
  clusters : method ≠ .sessionMovingBlock →
    ∀ sampled ∈ samples values keys policy method, IsWholeClusters values keys sampled
  interval : ∃ estimates interval, estimatesOf (samples values keys policy method) = .ok estimates ∧
    fixedSeedResampledMean values policy method keys = .ok interval ∧
    IsWellFormed estimates interval ∧
    ∀ p ∈ [policy.familywiseAlpha / policy.adjustmentTests / 2,
      1 - policy.familywiseAlpha / policy.adjustmentTests / 2],
      lowerIndex estimates p < estimates.length ∧ upperIndex estimates p < estimates.length

theorem samples_ne_nil (hlength : keys.length = values.length) (hne : values ≠ []) :
    ∀ sampled ∈ samples values keys policy method, sampled ≠ [] := by
  have hkeys : keys ≠ [] := by
    rw [← List.length_pos_iff, hlength]
    exact List.length_pos_iff.2 hne
  intro sampled hmem
  cases method with
  | sessionMovingBlock =>
    rw [← List.length_pos_iff, length_of_mem_movingBlockSamples hlength hmem]
    exact List.length_pos_iff.2 hne
  | eventCluster | dateCluster | underlyingMaturityCluster =>
    exact ne_nil_of_isWholeClusters hlength hkeys (isWholeClusters_of_mem hmem)

theorem length_samples : (samples values keys policy method).length = policy.repetitions := by
  have hsample : ∀ _ : ℕ, ∀ call, clusterSample policy.generator values keys call = _ :=
    fun _ call => clusterSample_eq policy.generator call
  cases method with
  | sessionMovingBlock => simp [samples, movingBlockSamples, movingBlockPositions_eq]
  | eventCluster | dateCluster | underlyingMaturityCluster =>
    rw [samples, clusterSamples, Draws.run_mapM_range hsample]
    simp

/-- The estimates are the means of the samples, in order. -/
theorem estimatesOf_eq (hne : ∀ sampled ∈ samples values keys policy method, sampled ≠ []) :
    ∃ estimates, estimatesOf (samples values keys policy method) = .ok estimates ∧
      estimates.Pairwise (· ≤ ·) ∧ estimates.length = policy.repetitions := by
  have hmean : ∀ sampled ∈ samples values keys policy method,
      mean sampled = .ok (sampled.sum / sampled.length) := fun sampled hmem =>
    if_neg (hne sampled hmem)
  refine ⟨((samples values keys policy method).map fun sampled =>
    sampled.sum / (sampled.length : ℚ)).insertionSort (· ≤ ·), ?_, List.pairwise_insertionSort _ _, ?_⟩
  · rw [estimatesOf, Except.mapM_eq_map hmean]
    rfl
  · rw [List.length_insertionSort, List.length_map, length_samples]

/-- The resampled means keep what they are to keep exactly if, by moving blocks, the generator
    draws the same position for all values of a block. -/
theorem meetsResampling_iff (haccepted : requireClusterKeys values keys = .ok ())
    (hne : values ≠ []) (hrepetitions : 1 ≤ policy.repetitions)
    (halpha : 0 < policy.familywiseAlpha)
    (htests : policy.familywiseAlpha ≤ policy.adjustmentTests) :
    MeetsResampling values keys policy method ↔ (method = .sessionMovingBlock →
      OneDrawPerBlock policy.generator ((grouped values keys).map List.length)
        policy.repetitions) := by
  have hlength : keys.length = values.length := by
    rw [requireClusterKeys, Except.raiseIf_eq_ok, not_or, not_not] at haccepted
    exact haccepted.1
  have hruns := @movingBlockPositions_isRuns_iff policy.generator _ (length_grouped_pos hlength)
    policy.repetitions
  refine ⟨fun h hmethod => hruns.1 (h.runs hmethod), fun h => ⟨fun hmethod => hruns.2 (h hmethod),
    ?_, ?_, ?_⟩⟩
  · rintro rfl sampled hmem
    exact length_of_mem_movingBlockSamples hlength hmem
  · intro hmethod sampled hmem
    cases method with
    | sessionMovingBlock => exact absurd rfl hmethod
    | eventCluster | dateCluster | underlyingMaturityCluster => exact isWholeClusters_of_mem hmem
  obtain ⟨estimates, hestimates, hsorted, hcount⟩ :=
    estimatesOf_eq (@samples_ne_nil _ _ policy method hlength hne)
  have hestimatesne : estimates ≠ [] := by
    rw [← List.length_pos_iff, hcount]
    exact hrepetitions
  have htestspos : (0 : ℚ) < policy.adjustmentTests := halpha.trans_le htests
  have halphapos : 0 < policy.familywiseAlpha / policy.adjustmentTests := div_pos halpha htestspos
  have halphale : policy.familywiseAlpha / policy.adjustmentTests ≤ 1 :=
    (div_le_one₀ htestspos).2 htests
  refine ⟨estimates, _, hestimates, ?_, isWellFormed_of_quantiles hestimatesne hsorted
    (p := policy.familywiseAlpha / policy.adjustmentTests / 2)
    (q := 1 - policy.familywiseAlpha / policy.adjustmentTests / 2) (by linarith) (by linarith)
    (by linarith) (values.sum / values.length), ?_⟩
  · rw [fixedSeedResampledMean, haccepted, Except.ok_bind, hestimates, Except.ok_bind,
      Except.raiseIf, if_neg (by exact_mod_cast htestspos.ne'), Except.ok_bind, mean, if_neg hne]
    dsimp only
    rw [quantile_eq hestimatesne (by linarith), quantile_eq hestimatesne (by linarith)]
    rfl
  · simp only [List.forall_mem_cons, List.not_mem_nil, false_implies, implies_true, and_true]
    exact ⟨⟨lowerIndex_lt hestimatesne (by linarith), upperIndex_lt hestimatesne⟩,
      lowerIndex_lt hestimatesne (by linarith), upperIndex_lt hestimatesne⟩

end Mean

namespace ResamplingSample

/-- A generator that draws the numbers of a list first. -/
def drawing (draws : List ℕ) : Generator where
  randrange call n := draws.getD call 0 % n
  randrange_lt _ _ hn := Nat.mod_lt _ hn

/-- One sample of two values of a session. -/
def policy (draws : List ℕ) : BootstrapPolicy := ⟨1, drawing draws, 1 / 20, 1⟩

def keys : List String := ["2026-08-27", "2026-08-27"]

theorem lengths_eq : (grouped [1, 2] keys).map List.length = [2] := by decide +kernel

/-- The draws of the seed 4: the first value is taken twice. -/
theorem block_is_broken : ¬ MeetsResampling [1, 2] keys (policy [0, 1, 0, 1, 1, 0])
    .sessionMovingBlock ∧
    movingBlockSamples [1, 2] keys (policy [0, 1, 0, 1, 1, 0]) = [[1, 1]] := by
  refine ⟨fun h => ?_, by decide +kernel⟩
  have hruns := (movingBlockPositions_isRuns_iff (length_grouped_pos rfl) 1).1 (h.runs rfl)
  rw [lengths_eq] at hruns
  have hsame := hruns 0 one_pos (2, 0) (by decide +kernel) 1 one_lt_two
  exact absurd hsame (by decide +kernel)

/-- The draws of the seed 2. -/
theorem block_is_kept : MeetsResampling [1, 2] keys (policy [0, 0, 0, 1, 0, 1])
    .sessionMovingBlock := by
  refine (meetsResampling_iff rfl (List.cons_ne_nil _ _) le_rfl (by decide +kernel)
    (by decide +kernel)).2 fun _ => ?_
  rw [lengths_eq]
  intro repetition hrepetition session hsession i hi
  obtain rfl : repetition = 0 := Nat.lt_one_iff.1 hrepetition
  have hcalls : sessionCalls [2] 0 = [(2, 0)] := by decide +kernel
  obtain rfl : session = (2, 0) := List.mem_singleton.1 (hcalls ▸ hsession)
  rcases Nat.le_one_iff_eq_zero_or_eq_one.1 (Nat.le_of_lt_succ hi) with rfl | rfl
  · decide +kernel
  · decide +kernel

end ResamplingSample

end TradingAgent.StrategyResearch
