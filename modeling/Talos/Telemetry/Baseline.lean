import Talos.Rust.Core
import Talos.Telemetry.Wildcard

/-!
# Promotion of baselines

`build_graph_payload` keeps a row for each stable fact: the promoted value, the value
that was last observed, and how often in a row it was. The values are those of JSON up to
the equality of `serde_json`, and a counter of type `i32` is kept by its bits.

The promoted value is that of the most recent run of equal observations that reached the
threshold. A row without a promoted value holds `null`, and so does a row to which `null`
was promoted: the next promotion over it is not a shift.
-/

namespace Talos.Telemetry

open Rust

structure Json (V : Type) where
  null : V
  no : V

structure FactCandidate (V : Type) where
  factKey : String
  factValue : V
  stabilityClass : String

structure CurrentFact where
  factKey : String
  stabilityClass : Option String

structure StabilityOverride where
  factKeyPattern : String
  stabilityClass : String

structure FactBaseline (V : Type) where
  factKey : String
  promotedValue : V
  candidateValue : V
  candidateCount : ℕ
  windowCount : ℕ

structure BaselineShift (V : Type) where
  factKey : String
  currentValue : V
  previousValue : V

/-- What a message and the stored state bring. -/
structure Message (V : Type) where
  messageType : String
  facts : List (FactCandidate V)
  currentFacts : List CurrentFact
  stabilityOverrides : List StabilityOverride
  baselines : List (FactBaseline V)

/-! ## The facts of a message -/

def patternMatches (pattern value : String) : Bool :=
  wildcardMatch (toAsciiLowercase pattern).toList (toAsciiLowercase value).toList

def overrideSpecificity (pattern : String) : ℕ :=
  (pattern.toList.filter fun c => c ≠ '*' && c ≠ '?').length

/-- The most specific override, the last one of several. -/
def bestOverride (overrides : List StabilityOverride) (factKey : String) :
    Option StabilityOverride :=
  (overrides.filter fun rule => patternMatches rule.factKeyPattern factKey).foldl
    (fun best rule => some (best.elim rule fun found =>
      if overrideSpecificity found.factKeyPattern ≤ overrideSpecificity rule.factKeyPattern
      then rule else found)) none

variable {V : Type}

def applyStabilityOverrides (facts : List (FactCandidate V)) (overrides : List StabilityOverride) :
    List (FactCandidate V) :=
  facts.map fun fact =>
    match bestOverride overrides fact.factKey with
    | some rule => { fact with stabilityClass := toAsciiLowercase rule.stabilityClass }
    | none => fact

def isNamed (start stop factKey : String) : Bool :=
  start.toList.isPrefixOf factKey.toList && stop.toList.isSuffixOf factKey.toList

def snapshotAbsenceReplacementValue (json : Json V) (factKey : String) (seenKeys : List String) :
    Option V :=
  if isNamed "app." ".installed" factKey || isNamed "startup." ".enabled" factKey ||
      isNamed "feature." ".enabled" factKey || isNamed "task." ".enabled" factKey ||
      isNamed "cert." ".present" factKey || isNamed "update.pending." ".present" factKey ||
      isNamed "network.adapter." ".connected" factKey then some json.no
  else if isNamed "service." ".status" factKey then some json.null
  else if isNamed "app." ".version" factKey then
    let app := String.ofList (factKey.toList.take (factKey.toList.length - 8))
    if seenKeys.contains (app ++ ".installed") then none else some json.null
  else none

def completeSnapshotAbsenceFacts (json : Json V) (facts : List (FactCandidate V))
    (currentFacts : List CurrentFact) : List (FactCandidate V) :=
  let seenKeys := facts.map (·.factKey)
  facts ++ currentFacts.filterMap fun fact =>
    if seenKeys.contains fact.factKey then none
    else (snapshotAbsenceReplacementValue json fact.factKey seenKeys).map fun value =>
      ⟨fact.factKey, value, fact.stabilityClass.getD "stable"⟩

def Message.stableFacts (json : Json V) (message : Message V) : List (FactCandidate V) :=
  let facts := if message.messageType = "snapshot" then
      completeSnapshotAbsenceFacts json message.facts message.currentFacts
    else message.facts
  (applyStabilityOverrides facts message.stabilityOverrides).filter (·.stabilityClass = "stable")

/-! ## The rows -/

/-- The rows by key; of several with one key the last one counts. -/
def baselineByKey (baselines : List (FactBaseline V)) (factKey : String) :
    Option (FactBaseline V) :=
  baselines.reverse.find? (·.factKey = factKey)

def promotedOf (json : Json V) (row : Option (FactBaseline V)) : V :=
  row.elim json.null (·.promotedValue)

/-- A message that observes the key once. -/
structure Observation (json : Json V) (key : String) where
  message : Message V
  fact : FactCandidate V
  single : (message.stableFacts json).filter (·.factKey = key) = [fact]

variable {json : Json V} {key : String} {threshold : ℕ} {row : Option (FactBaseline V)}

theorem baselineByKey_stored (hrow : ∀ b ∈ row, b.factKey = key) (others : List (FactBaseline V)) :
    baselineByKey (others.filter (·.factKey ≠ key) ++ row.toList) key = row := by
  cases row with
  | none => simp [baselineByKey]
  | some b => simp [baselineByKey, hrow b rfl]

theorem Observation.factKey_fact (o : Observation json key) : o.fact.factKey = key := by
  have hmem : o.fact ∈ (o.message.stableFacts json).filter (·.factKey = key) := by
    rw [o.single]
    exact List.mem_singleton_self _
  exact of_decide_eq_true (List.mem_filter.mp hmem).2

theorem take_run {n : ℕ} {y : V} {rest : List V} (hrest : rest.head? ≠ some y) :
    (y :: (List.replicate n y ++ rest)).take threshold = List.replicate threshold y ↔
      threshold ≤ n + 1 := by
  rw [← List.cons_append, ← List.replicate_succ]
  refine ⟨fun htake => ?_, fun hle => ?_⟩
  · by_contra hlt
    -- The value after the run stands at a place that the threshold covers.
    have hget := congrArg (·[n + 1]?) htake
    rw [List.getElem?_take_of_lt (by omega),
      List.getElem?_append_right (Nat.le_of_eq List.length_replicate),
      List.length_replicate, Nat.sub_self, ← List.head?_eq_getElem?,
      List.getElem?_replicate_of_lt (by omega)] at hget
    exact hrest hget
  · rw [List.take_append_of_le_length (by rwa [List.length_replicate]), List.take_replicate,
      Nat.min_eq_left hle]

variable [DecidableEq V]

def nextCount (json : Json V) (row : Option (FactBaseline V)) (value : V) : ℕ :=
  if row.elim json.null (·.candidateValue) = value then (row.elim 0 (·.candidateCount) + 1) % 2 ^ 32
  else 1

def promote (json : Json V) (threshold : ℕ) (row : Option (FactBaseline V))
    (fact : FactCandidate V) : FactBaseline V × Option (BaselineShift V) :=
  let windowCount := (row.elim 0 (·.windowCount) + 1) % 2 ^ 32
  let promoted := promotedOf json row
  if threshold ≤ nextCount json row fact.factValue ∧ promoted ≠ fact.factValue then
    (⟨fact.factKey, fact.factValue, fact.factValue, 0, windowCount⟩,
      if promoted = json.null then none else some ⟨fact.factKey, fact.factValue, promoted⟩)
  else
    (⟨fact.factKey, promoted, fact.factValue, nextCount json row fact.factValue, windowCount⟩, none)

/-- What `build_graph_payload` writes for the stable facts, with the shifts. -/
def buildGraphPayload (json : Json V) (threshold : ℕ) (message : Message V) :
    List (FactBaseline V × Option (BaselineShift V)) :=
  (message.stableFacts json).map fun fact =>
    promote json threshold (baselineByKey message.baselines fact.factKey) fact

/-! ## Observing one key -/

/-- The rows and shifts of the key when the row of the key is the stored one. -/
def Observation.results (threshold : ℕ) (row : Option (FactBaseline V))
    (o : Observation json key) : List (FactBaseline V × Option (BaselineShift V)) :=
  (buildGraphPayload json threshold
    { o.message with
      baselines := o.message.baselines.filter (·.factKey ≠ key) ++ row.toList }).filter
    (·.1.factKey = key)

def Observation.shifts (threshold : ℕ) (row : Option (FactBaseline V)) (o : Observation json key) :
    List (BaselineShift V) :=
  (o.results threshold row).filterMap Prod.snd

/-- The row after the observations, the last of which comes first. -/
def rowAfter (threshold : ℕ) : List (Observation json key) → Option (FactBaseline V)
  | [] => none
  | o :: before => ((o.results threshold (rowAfter threshold before)).head?).map Prod.fst

/-- The value of the most recent run of at least `threshold` equal values, the last of which
comes first. -/
def recentRun (threshold : ℕ) : List V → Option V
  | [] => none
  | x :: before =>
    if (x :: before).take threshold = List.replicate threshold x then some x
    else recentRun threshold before

theorem factKey_promote (row : Option (FactBaseline V)) (fact : FactCandidate V) :
    (promote json threshold row fact).1.factKey = fact.factKey := by
  unfold promote
  dsimp only
  split <;> rfl

theorem candidateValue_promote (row : Option (FactBaseline V)) (fact : FactCandidate V) :
    (promote json threshold row fact).1.candidateValue = fact.factValue := by
  unfold promote
  dsimp only
  split <;> rfl

theorem promote_of_ne {fact : FactCandidate V}
    (h : (promote json threshold row fact).1.promotedValue ≠ fact.factValue) :
    promotedOf json row ≠ fact.factValue ∧ nextCount json row fact.factValue < threshold ∧
      (promote json threshold row fact).1.candidateCount = nextCount json row fact.factValue := by
  unfold promote at h ⊢
  dsimp only at h ⊢
  split at h
  · exact absurd rfl h
  next hkeeps =>
    rw [if_neg hkeeps]
    exact ⟨h, Nat.lt_of_not_le fun hle => hkeeps ⟨hle, h⟩, rfl⟩

theorem filter_buildGraphPayload (message : Message V) :
    (buildGraphPayload json threshold message).filter (·.1.factKey = key) =
      ((message.stableFacts json).filter (·.factKey = key)).map
        (promote json threshold (baselineByKey message.baselines key)) := by
  unfold buildGraphPayload
  rw [List.filter_map]
  simp only [Function.comp_def, factKey_promote]
  refine List.map_congr_left fun fact hfact => ?_
  rw [of_decide_eq_true (List.mem_filter.mp hfact).2]

theorem Observation.results_eq (hrow : ∀ b ∈ row, b.factKey = key) (o : Observation json key) :
    o.results threshold row = [promote json threshold row o.fact] := by
  unfold results
  rw [filter_buildGraphPayload, baselineByKey_stored hrow]
  exact congrArg (List.map _) o.single

theorem factKey_rowAfter (os : List (Observation json key)) :
    ∀ b ∈ rowAfter threshold os, b.factKey = key := by
  induction os with
  | nil => exact fun b hb => nomatch hb
  | cons o before ih =>
    intro b hb
    rw [rowAfter, o.results_eq ih] at hb
    obtain rfl : (promote json threshold (rowAfter threshold before) o.fact).1 = b := by
      simpa using hb
    rw [factKey_promote, o.factKey_fact]

theorem rowAfter_cons (o : Observation json key) (before : List (Observation json key)) :
    rowAfter threshold (o :: before) =
      some (promote json threshold (rowAfter threshold before) o.fact).1 := by
  rw [rowAfter, o.results_eq (factKey_rowAfter before)]
  rfl

/-! ## The row follows the runs -/

theorem recentRun_run {n : ℕ} {y : V} {rest : List V} (hrest : rest.head? ≠ some y) :
    recentRun threshold (y :: (List.replicate n y ++ rest)) =
      if threshold ≤ n + 1 then some y else recentRun threshold (List.replicate n y ++ rest) := by
  rw [recentRun]
  simp only [take_run hrest]

theorem exists_run (y : V) (history : List V) :
    ∃ n rest, history = List.replicate n y ++ rest ∧ rest.head? ≠ some y := by
  induction history with
  | nil => exact ⟨0, [], rfl, nofun⟩
  | cons x history ih =>
    by_cases hx : x = y
    · obtain ⟨n, rest, rfl, hrest⟩ := ih
      exact ⟨n + 1, rest, by rw [hx, List.replicate_succ, List.cons_append], hrest⟩
    · exact ⟨0, x :: history, rfl, fun h => hx (Option.some_inj.mp h)⟩

/-- The row holds the value of the most recent run, and unless that is the next value it
counts the values that the next one continues. -/
structure Tracks (json : Json V) (threshold : ℕ) (history : List V)
    (row : Option (FactBaseline V)) : Prop where
  promoted : promotedOf json row = (recentRun threshold history).getD json.null
  count : ∀ n y rest, history = List.replicate n y ++ rest → rest.head? ≠ some y →
    promotedOf json row ≠ y → n < threshold ∧ nextCount json row y = n + 1

section Tracks

variable {history : List V} {row : Option (FactBaseline V)} {fact : FactCandidate V}

theorem tracks_nil (hpos : 1 ≤ threshold) : Tracks json threshold [] none := by
  refine ⟨rfl, fun n y rest hrun _ _ => ?_⟩
  obtain ⟨hn, rfl⟩ := List.append_eq_nil_iff.mp hrun.symm
  obtain rfl : n = 0 := by simpa using hn
  refine ⟨hpos, ?_⟩
  unfold nextCount
  split <;> rfl

/-- The row is promoted exactly at the end of a run that reaches the threshold. -/
theorem Tracks.promotes_iff (h : Tracks json threshold history row) (fact : FactCandidate V) :
    threshold ≤ nextCount json row fact.factValue ∧ promotedOf json row ≠ fact.factValue ↔
      (recentRun threshold (fact.factValue :: history)).getD json.null ≠ promotedOf json row := by
  obtain ⟨n, rest, rfl, hrest⟩ := exists_run fact.factValue history
  rw [recentRun_run hrest]
  by_cases hsame : promotedOf json row = fact.factValue
  · split
    · simp [hsame]
    · simp [hsame, ← h.promoted]
  · rw [(h.count n _ rest rfl hrest hsame).2]
    split
    next hle => simp [hle, hsame, Ne.symm hsame]
    next hlt => simp [hlt, ← h.promoted]

theorem Tracks.promoted_promote (h : Tracks json threshold history row) :
    (promote json threshold row fact).1.promotedValue =
      (recentRun threshold (fact.factValue :: history)).getD json.null := by
  have hiff := h.promotes_iff fact
  unfold promote
  dsimp only
  split
  next hpromotes =>
    have hchanged := hiff.mp hpromotes
    rw [h.promoted, recentRun] at hchanged
    rw [recentRun]
    split at hchanged
    next hrun => rw [if_pos hrun]; rfl
    · exact absurd rfl hchanged
  next hkeeps => exact (not_not.mp (mt hiff.mpr hkeeps)).symm

theorem Tracks.promote (hpos : 1 ≤ threshold) (hbound : threshold < 2 ^ 32)
    (h : Tracks json threshold history row) :
    Tracks json threshold (fact.factValue :: history)
      (some (promote json threshold row fact).1) := by
  refine ⟨h.promoted_promote, fun n y rest hrun hrest hother => ?_⟩
  have hcount : nextCount json (some (Telemetry.promote json threshold row fact).1) y =
      if fact.factValue = y then
        ((Telemetry.promote json threshold row fact).1.candidateCount + 1) % 2 ^ 32
      else 1 := by
    unfold nextCount
    rw [Option.elim_some, candidateValue_promote, Option.elim_some]
  cases n with
  | zero =>
    obtain rfl : fact.factValue :: history = rest := hrun
    have hne : fact.factValue ≠ y := fun hy => hrest (congrArg some hy)
    exact ⟨hpos, by rw [hcount, if_neg hne]⟩
  | succ n =>
    obtain ⟨rfl, rfl⟩ := List.cons_eq_cons.mp hrun
    obtain ⟨hne, hbelow, hsame⟩ := promote_of_ne hother
    have hnext := (h.count n _ rest rfl hrest hne).2
    refine ⟨by omega, ?_⟩
    rw [hcount, if_pos rfl, hsame, hnext, Nat.mod_eq_of_lt (by omega)]

end Tracks

theorem tracks_rowAfter (hpos : 1 ≤ threshold) (hbound : threshold < 2 ^ 32)
    (os : List (Observation json key)) :
    Tracks json threshold (os.map (·.fact.factValue)) (rowAfter threshold os) := by
  induction os with
  | nil => exact tracks_nil hpos
  | cons o before ih =>
    rw [rowAfter_cons]
    exact ih.promote hpos hbound

theorem shifts_promote (row : Option (FactBaseline V)) (fact : FactCandidate V) :
    (promote json threshold row fact).2.isSome ↔
      (threshold ≤ nextCount json row fact.factValue ∧ promotedOf json row ≠ fact.factValue) ∧
        promotedOf json row ≠ json.null := by
  unfold promote
  dsimp only
  split
  next hpromotes =>
    split
    next hnull => simp [hnull]
    next hnull => simp [hnull, hpromotes]
  next hkeeps => simp [hkeeps]

/-- After every message the promoted value is that of the most recent run that reached the
threshold, and a shift is emitted exactly when that value changes from an earlier one, unless
the earlier one is `null`. -/
theorem baseline_follows_runs_iff (json : Json V) (key : String) (threshold : ℕ)
    (hpos : 1 ≤ threshold) (hbound : threshold < 2 ^ 32) (o : Observation json key)
    (before : List (Observation json key)) :
    promotedOf json (rowAfter threshold (o :: before)) =
        (recentRun threshold ((o :: before).map (·.fact.factValue))).getD json.null ∧
      (o.shifts threshold (rowAfter threshold before) ≠ [] ↔
        ∃ v, recentRun threshold (before.map (·.fact.factValue)) = some v ∧
          recentRun threshold ((o :: before).map (·.fact.factValue)) ≠ some v) ↔
    (recentRun threshold (before.map (·.fact.factValue)) = some json.null →
      recentRun threshold ((o :: before).map (·.fact.factValue)) = some json.null) := by
  have htracks := tracks_rowAfter hpos hbound before
  have hafter := (tracks_rowAfter hpos hbound (o :: before)).promoted
  have hshifts : o.shifts threshold (rowAfter threshold before) ≠ [] ↔
      (promote json threshold (rowAfter threshold before) o.fact).2.isSome := by
    unfold Observation.shifts
    rw [o.results_eq (factKey_rowAfter before)]
    cases hshift : (promote json threshold (rowAfter threshold before) o.fact).2 <;> simp [hshift]
  rw [hshifts, shifts_promote, htracks.promotes_iff, htracks.promoted]
  refine (and_iff_right hafter).trans ?_
  have hmono : recentRun threshold ((o :: before).map (·.fact.factValue)) = none →
      recentRun threshold (before.map (·.fact.factValue)) = none := by
    rw [List.map_cons, recentRun]
    split
    · nofun
    · exact id
  rw [List.map_cons] at hmono ⊢
  generalize recentRun threshold (o.fact.factValue :: _) = new at hmono ⊢
  generalize recentRun threshold (before.map (·.fact.factValue)) = old at hmono ⊢
  cases old with
  | none => simp
  | some v =>
    cases new with
    | none => cases hmono rfl
    | some w =>
      by_cases hnull : v = json.null
      · simp [hnull]
      · simp [hnull]

/-- The spooler is seen running, or a snapshot comes without it. -/
def spoolerSeen (running : Bool) : Message (Option Bool) where
  messageType := "snapshot"
  facts := if running then [⟨"service.spooler.status", some true, "stable"⟩] else []
  currentFacts := [⟨"service.spooler.status", some "stable"⟩]
  stabilityOverrides := []
  baselines := []

def spooler (running : Bool) : Observation ⟨none, some false⟩ "service.spooler.status" where
  message := spoolerSeen running
  fact := ⟨"service.spooler.status", if running then some true else none, "stable"⟩
  single := by cases running <;> rfl

theorem baseline_follows_runs_spooler : (1 ≤ 2 ∧ 2 < 2 ^ 32) ∧
      (promotedOf ⟨none, some false⟩ (rowAfter 2 [spooler true, spooler true]) =
        (recentRun 2 ([spooler true, spooler true].map (·.fact.factValue))).getD none ∧
      ((spooler true).shifts 2 (rowAfter 2 [spooler true]) ≠ [] ↔
        ∃ v, recentRun 2 ([spooler true].map (·.fact.factValue)) = some v ∧
          recentRun 2 ([spooler true, spooler true].map (·.fact.factValue)) ≠ some v)) :=
  ⟨by decide, (baseline_follows_runs_iff _ _ 2 (by decide) (by decide) (spooler true)
    [spooler true]).mpr (by decide)⟩

/-- A service that was absent for long enough returns without a shift. -/
theorem returned_service_is_no_shift : (spooler true).shifts 2 (rowAfter 2
        [spooler true, spooler false, spooler false, spooler true, spooler true]) = [] ∧
      recentRun 2 ([spooler true, spooler false, spooler false, spooler true, spooler true].map
        (·.fact.factValue)) = some none ∧
      recentRun 2 ([spooler true, spooler true, spooler false, spooler false, spooler true,
        spooler true].map (·.fact.factValue)) = some (some true) :=
  ⟨rfl, rfl, rfl⟩

end Talos.Telemetry
