import Mathlib.Data.Finmap
import Talos.Transition.Run

/-!
# Delivery of telemetry

The members of a consumer group read the telemetry from a broker and hand every message to
the API. The broker keeps for each partition the offset from which a member goes on that
joins. A member commits its offsets when it has handled a whole batch, so what lies below a
committed offset has been handled, however often members fail and join again.

A message that cannot be handled becomes a dead letter. If that cannot be published either,
the consumer goes on without it. What the API answers is left open.
-/

namespace Talos.Telemetry

open Transition

structure TopicPartition where
  topic : String
  partition : ℤ
deriving DecidableEq

structure SourceMeta where
  place : TopicPartition
  offset : ℕ
deriving DecidableEq

/-! ## Reading -/

/-- A batch of a fetch response. The differences of the offsets are as they are encoded,
twice what they are. -/
structure RecordBatch where
  baseOffset : ℕ
  offsetDeltas : List ℕ

abbrev FetchResponse := List (TopicPartition × List RecordBatch)

abbrev PartitionOffsets := Finmap fun _ : TopicPartition => ℕ

/-- The offset from which a consumer reads after the batch. -/
def RecordBatch.next (batch : RecordBatch) : ℕ := batch.baseOffset + batch.offsetDeltas.length

def RecordBatch.messages (batch : RecordBatch) (place : TopicPartition) : List SourceMeta :=
  batch.offsetDeltas.map fun delta => ⟨place, delta / 2 + batch.baseOffset⟩

def readBatches (place : TopicPartition) (batches : List RecordBatch) (offsets : PartitionOffsets) :
    PartitionOffsets :=
  batches.foldl (fun offsets batch => offsets.insert place batch.next) offsets

def nextBatch (response : FetchResponse) (offsets : PartitionOffsets) :
    PartitionOffsets × List SourceMeta :=
  (response.foldl (fun offsets read => readBatches read.1 read.2 offsets) offsets,
    response.flatMap fun read => read.2.flatMap fun batch => batch.messages read.1)

/-- The offsets of a consumer that starts from those of the group. -/
def seekToGroup (committed : TopicPartition → Option ℕ) (assigned : List TopicPartition) :
    PartitionOffsets :=
  assigned.foldl (fun offsets place => offsets.insert place ((committed place).getD 0)) ∅

/-- A consumer with its stream: the offsets to read from, those it committed last, and what
is left of the batch that was yielded. -/
structure Consumer where
  offsets : PartitionOffsets
  lastCommittedOffsets : Option PartitionOffsets
  batch : Option (List SourceMeta)

/-! ## Handling a message -/

inductive ErrorKind where
  | transient | permanent
deriving DecidableEq

structure Config where
  snapshotTopic : String
  eventsTopic : String
  remediationCommandsTopic : String
  remediationStatusTopic : String
  patchProgressTopic : String
  maxRetries : ℕ

/-- The outcome of one attempt, which is open unless nobody handles the topic. -/
def processOnce (config : Config) (source : SourceMeta) (attempt : Option ErrorKind) :
    Option ErrorKind :=
  let topic := source.place.topic
  if topic = config.snapshotTopic ∨ topic = config.eventsTopic ∨
      topic = config.remediationCommandsTopic ∨ topic = config.remediationStatusTopic ∨
      topic = config.patchProgressTopic then attempt
  else some .permanent

def processWithRetries (config : Config) (source : SourceMeta) (attempts : ℕ → Option ErrorKind) :
    ℕ → Option ErrorKind
  | 0 => processOnce config source (attempts 0)
  | retries + 1 =>
    match processOnce config source (attempts (retries + 1)) with
    | some .transient => processWithRetries config source attempts retries
    | result => result

inductive Outcome where
  | skipped | processed | deadLettered | dropped
deriving DecidableEq

/-- What is open when a message is handled: whether the API answers that it knows the message,
the attempts, by how many retries are left, and whether a dead letter can be published. -/
structure Handling where
  known : Bool
  attempts : ℕ → Option ErrorKind
  published : Bool

def handleMessage (config : Config) (source : SourceMeta) (handling : Handling) : Outcome :=
  if handling.known then .skipped
  else
    match processWithRetries config source handling.attempts config.maxRetries with
    | none => .processed
    | some _ => if handling.published then .deadLettered else .dropped

/-! ## The group -/

structure Group where
  committed : TopicPartition → Option ℕ
  members : ℕ → Option Consumer
  outcomes : List (SourceMeta × Outcome)

/-- A member joins, whatever became of its stream before. A commit is stored for some of the
partitions, and the member may not get the answer. -/
inductive Action where
  | join (assigned : List TopicPartition)
  | fetch (response : FetchResponse)
  | handle (handling : Handling)
  | resume (stored : List TopicPartition) (answered : Bool)

namespace Group

def update (g : Group) (member : ℕ) (consumer : Option Consumer) : Group :=
  { g with members := Function.update g.members member consumer }

/-- The stream goes on after a batch that was handled. -/
def resume (g : Group) (member : ℕ) (consumer : Consumer) (stored : List TopicPartition)
    (answered : Bool) : Group :=
  if consumer.lastCommittedOffsets = some consumer.offsets then
    g.update member (some { consumer with batch := none })
  else
    { g.update member (if answered then
          some ⟨consumer.offsets, some consumer.offsets, none⟩ else none) with
      committed := fun place =>
        if place ∈ stored then (consumer.offsets.lookup place).or (g.committed place)
        else g.committed place }

/-- The first message of the batch is handled. -/
def handle (config : Config) (g : Group) (member : ℕ) (offsets : PartitionOffsets)
    (last : Option PartitionOffsets) (source : SourceMeta) (rest : List SourceMeta)
    (handling : Handling) : Group :=
  { g.update member (some ⟨offsets, last, some rest⟩) with
    outcomes := (source, handleMessage config source handling) :: g.outcomes }

def step (config : Config) (g : Group) (action : ℕ × Action) : Group :=
  match action.2, g.members action.1 with
  | .join assigned, _ => g.update action.1 (some ⟨seekToGroup g.committed assigned, none, none⟩)
  | .fetch response, some ⟨offsets, last, none⟩ =>
    let (offsets, messages) := nextBatch response offsets
    g.update action.1 (some ⟨offsets, last, some messages⟩)
  | .handle handling, some ⟨offsets, last, some (source :: rest)⟩ =>
    g.handle config action.1 offsets last source rest handling
  | .resume stored answered, some ⟨offsets, last, some []⟩ =>
    g.resume action.1 ⟨offsets, last, some []⟩ stored answered
  | _, _ => g

def Handled (g : Group) (source : SourceMeta) : Prop := ∃ outcome, (source, outcome) ∈ g.outcomes

end Group

/-! ## What lies below a committed offset -/

theorem lookup_foldl_insert {ι : Type} (place : ι → TopicPartition) {value : ι → ℕ}
    {items : List ι} {offsets : PartitionOffsets} {p : TopicPartition} {limit : ℕ}
    (h : (items.foldl (fun offsets i => offsets.insert (place i) (value i)) offsets).lookup p =
      some limit) :
    offsets.lookup p = some limit ∨ ∃ i ∈ items, place i = p ∧ value i = limit := by
  induction items generalizing offsets with
  | nil => exact .inl h
  | cons i items ih =>
    rcases ih h with h | ⟨j, hj, hlast⟩
    · by_cases hplace : p = place i
      · subst hplace
        rw [Finmap.lookup_insert] at h
        exact .inr ⟨i, List.mem_cons_self, rfl, Option.some.inj h⟩
      · exact .inl ((Finmap.lookup_insert_of_ne _ hplace).symm.trans h)
    · exact .inr ⟨j, List.mem_cons_of_mem _ hj, hlast⟩

section Delivery

variable {response : FetchResponse} {offsets : PartitionOffsets} {place : TopicPartition}
  {limit : ℕ}

theorem lookup_nextBatch (h : (nextBatch response offsets).1.lookup place = some limit) :
    offsets.lookup place = some limit ∨
      ∃ read ∈ response, read.1 = place ∧ ∃ batch ∈ read.2, batch.next = limit := by
  unfold nextBatch at h
  induction response generalizing offsets with
  | nil => exact .inl h
  | cons read response ih =>
    rcases ih h with h | ⟨later, hlater, hread⟩
    · rcases lookup_foldl_insert _ h with h | ⟨batch, hbatch, hplace, hnext⟩
      · exact .inl h
      · exact .inr ⟨read, List.mem_cons_self, hplace, batch, hbatch, hnext⟩
    · exact .inr ⟨later, List.mem_cons_of_mem _ hlater, hread⟩

theorem lookup_seekToGroup {committed : TopicPartition → Option ℕ} {assigned : List TopicPartition}
    (h : (seekToGroup committed assigned).lookup place = some limit) :
    limit = (committed place).getD 0 := by
  rcases lookup_foldl_insert id h with h | ⟨_, _, rfl, hvalue⟩
  · cases h
  · exact hvalue.symm

/-- A response holds every record between the offset that was asked for and the end of each
of its batches. -/
def FetchResponse.Complete (stored : TopicPartition → Set ℕ) (asked : TopicPartition → ℕ)
    (response : FetchResponse) : Prop :=
  ∀ read ∈ response, ∀ batch ∈ read.2, ∀ offset ∈ stored read.1,
    asked read.1 ≤ offset → offset < batch.next →
      ∃ other ∈ read.2, ⟨read.1, offset⟩ ∈ other.messages read.1

def Answers (stored : TopicPartition → Set ℕ) (g : Group) (action : ℕ × Action) : Prop :=
  ∀ response consumer, action.2 = .fetch response → g.members action.1 = some consumer →
    response.Complete stored fun place => (consumer.offsets.lookup place).getD 0

variable (stored : TopicPartition → Set ℕ) (start : TopicPartition → Option ℕ)

/-- The records of the partition from the start to the limit have the property. -/
def Below (P : SourceMeta → Prop) (place : TopicPartition) (limit : ℕ) : Prop :=
  ∀ offset ∈ stored place, (start place).getD 0 ≤ offset → offset < limit → P ⟨place, offset⟩

/-- What the consumer has read is handled or still to be handled. -/
def Group.Reads (g : Group) (consumer : Consumer) : Prop :=
  ∀ place limit, consumer.offsets.lookup place = some limit → Below stored start
    (fun source => g.Handled source ∨ source ∈ consumer.batch.getD []) place limit

structure Group.Accounted (g : Group) : Prop where
  committed : ∀ place limit, g.committed place = some limit →
    Below stored start g.Handled place limit
  members : ∀ member consumer, g.members member = some consumer → g.Reads stored start consumer

variable {stored start} {g : Group} {consumer : Consumer}

theorem Below.mono {P P' : SourceMeta → Prop} (h : Below stored start P place limit)
    (himp : ∀ source, P source → P' source) : Below stored start P' place limit :=
  fun offset hstored hstart hlimit => himp _ (h offset hstored hstart hlimit)

theorem Group.Reads.nextBatch {last : Option PartitionOffsets}
    (h : g.Reads stored start ⟨offsets, last, none⟩)
    (hcomplete : response.Complete stored fun place => (offsets.lookup place).getD 0) :
    g.Reads stored start
      ⟨(nextBatch response offsets).1, last, some (nextBatch response offsets).2⟩ := by
  intro place limit hlimit offset hstored hstart hoffset
  rcases lookup_nextBatch hlimit with hlimit | ⟨read, hread, rfl, batch, hbatch, rfl⟩
  · exact (h place limit hlimit offset hstored hstart hoffset).imp_right fun hnone => by cases hnone
  · by_cases hasked : (offsets.lookup read.1).getD 0 ≤ offset
    · obtain ⟨other, hother, hmem⟩ :=
        hcomplete read hread batch hbatch offset hstored hasked hoffset
      exact .inr (List.mem_flatMap.mpr ⟨read, hread, List.mem_flatMap.mpr ⟨other, hother, hmem⟩⟩)
    · -- below the offset that was asked for nothing is new
      cases hold : offsets.lookup read.1 with
      | none => simp [hold] at hasked
      | some asked =>
        rw [hold] at hasked
        exact (h read.1 asked hold offset hstored hstart (not_le.mp hasked)).imp_right
          fun hnone => by cases hnone

section Accounted

variable (h : g.Accounted stored start)
include h

theorem Group.Accounted.update (member : ℕ) {next : Option Consumer}
    (hnext : ∀ consumer, next = some consumer → g.Reads stored start consumer) :
    (g.update member next).Accounted stored start where
  committed := h.committed
  members := by
    intro other consumer hconsumer
    simp only [Group.update, Function.update_apply] at hconsumer
    split at hconsumer
    · exact hnext consumer hconsumer
    · exact h.members other consumer hconsumer

theorem Group.Accounted.reads_seekToGroup (assigned : List TopicPartition) :
    g.Reads stored start ⟨seekToGroup g.committed assigned, none, none⟩ := by
  intro place limit hlimit offset hstored hstart hoffset
  rw [lookup_seekToGroup hlimit] at hoffset
  cases hcommitted : g.committed place with
  | none => simp [hcommitted] at hoffset
  | some limit =>
    rw [hcommitted] at hoffset
    exact .inl (h.committed place limit hcommitted offset hstored hstart hoffset)

theorem Group.Accounted.handle {config : Config} {source : SourceMeta} {rest : List SourceMeta}
    {last : Option PartitionOffsets} {member : ℕ}
    (hmember : g.members member = some ⟨offsets, last, some (source :: rest)⟩)
    (handling : Handling) :
    (g.handle config member offsets last source rest handling).Accounted stored start := by
  have hgrows : ∀ source', g.Handled source' →
      (g.handle config member offsets last source rest handling).Handled source' :=
    fun _ ⟨found, hfound⟩ => ⟨found, List.mem_cons_of_mem _ hfound⟩
  refine ⟨fun place limit hlimit => (h.committed place limit hlimit).mono hgrows, ?_⟩
  intro other consumer hconsumer place limit hlimit
  simp only [Group.handle, Group.update, Function.update_apply] at hconsumer
  split at hconsumer
  · cases hconsumer
    refine (h.members _ _ hmember place limit hlimit).mono fun source' hsource => ?_
    rcases hsource with hdone | hmem
    · exact .inl (hgrows _ hdone)
    · rcases List.mem_cons.mp hmem with rfl | hmem
      · exact .inl ⟨_, List.mem_cons_self⟩
      · exact .inr hmem
  · exact (h.members other consumer hconsumer place limit hlimit).mono fun source' =>
      Or.imp_left (hgrows source')

theorem Group.Accounted.resume {member : ℕ}
    (hreads : g.Reads stored start consumer) (hbatch : consumer.batch = some [])
    (partitions : List TopicPartition) (answered : Bool) :
    (g.resume member consumer partitions answered).Accounted stored start := by
  have hdone : ∀ place limit, consumer.offsets.lookup place = some limit →
      Below stored start g.Handled place limit := fun place limit hlimit =>
    (hreads place limit hlimit).mono fun source hsource => hsource.resolve_right (by simp [hbatch])
  have hnext : ∀ last, g.Reads stored start ⟨consumer.offsets, last, none⟩ :=
    fun _ place limit hlimit => (hdone place limit hlimit).mono fun _ => .inl
  unfold Group.resume
  split
  · refine h.update member ?_
    rintro _ ⟨⟩
    exact hnext _
  · refine ⟨fun place limit hlimit => ?_, (h.update member ?_).members⟩
    · dsimp only at hlimit
      split at hlimit
      · rcases Option.or_eq_some_iff.mp hlimit with hlimit | ⟨-, hlimit⟩
        · exact hdone place limit hlimit
        · exact h.committed place limit hlimit
      · exact h.committed place limit hlimit
    · cases answered with
      | false => exact fun _ hnone => by cases hnone
      | true =>
        rintro _ ⟨⟩
        exact hnext _

theorem Group.Accounted.step (config : Config) {action : ℕ × Action}
    (hanswers : Answers stored g action) : (g.step config action).Accounted stored start := by
  unfold Group.step
  split
  · exact h.update _ fun consumer hconsumer => by cases hconsumer; exact h.reads_seekToGroup _
  · rename_i hfetch hmember
    exact h.update _ fun consumer hconsumer => by
      cases hconsumer
      exact (h.members _ _ hmember).nextBatch (hanswers _ _ hfetch hmember)
  · rename_i hmember
    exact h.handle hmember _
  · rename_i hmember
    exact h.resume (h.members _ _ hmember) rfl _ _
  · exact h

end Accounted

/-- However the members of the group fail and join again, every record between the offset at
the start and a committed offset has been handled. -/
theorem committed_records_handled (config : Config) {start : Group}
    (hmembers : ∀ member, start.members member = none) {actions : List (ℕ × Action)}
    (hanswers : along (Group.step config) (Answers stored) start actions)
    (hlimit : (run (Group.step config) start actions).committed place = some limit) {offset : ℕ}
    (hstored : offset ∈ stored place) (hstart : (start.committed place).getD 0 ≤ offset)
    (hoffset : offset < limit) :
    ∃ outcome, (⟨place, offset⟩, outcome) ∈ (run (Group.step config) start actions).outcomes := by
  have hfirst : start.Accounted stored start.committed := by
    refine ⟨fun place limit hlimit offset _ hstart hoffset => ?_, fun member consumer hmember => ?_⟩
    · rw [hlimit] at hstart
      exact absurd hoffset (not_lt.mpr hstart)
    · rw [hmembers] at hmember
      cases hmember
  have hrun := run_invariant_along (fun g action hg hq => hg.step config hq) hfirst hanswers
  exact hrun.committed place limit hlimit offset hstored hstart hoffset

end Delivery

def oneRetry : Config := ⟨"snapshots", "events", "commands", "statuses", "progress", 1⟩

def idleGroup : Group := ⟨fun _ => none, fun _ => none, []⟩

/-- The member fails after the first of two snapshots and joins again. It skips what the API
knows by then, and commits after the third. -/
def rejoined : List (ℕ × Action) :=
  let place : TopicPartition := ⟨"snapshots", 0⟩
  let secondAttempt : ℕ → Option ErrorKind := fun retries =>
    if retries = 0 then none else some .transient
  [(0, .join [place]), (0, .fetch [(place, [⟨0, [0, 2]⟩])]),
    (0, .handle ⟨false, secondAttempt, true⟩), (0, .join [place]),
    (0, .fetch [(place, [⟨0, [0, 2]⟩, ⟨2, [0]⟩])]), (0, .handle ⟨true, secondAttempt, true⟩),
    (0, .handle ⟨false, secondAttempt, true⟩), (0, .handle ⟨false, fun _ => some .permanent, true⟩),
    (0, .resume [place] true)]

theorem answers_rejoined :
    along (Group.step oneRetry) (Answers fun _ => {0, 1, 2}) idleGroup rejoined := by
  unfold rejoined
  have hother {g : Group} {action : Action} (h : ∀ response, action ≠ .fetch response) :
      Answers (fun _ => {0, 1, 2}) g (0, action) :=
    fun response _ hfetch => absurd hfetch (h response)
  have hfetched {g : Group} {response : FetchResponse}
      (h : response.Complete (fun _ => {0, 1, 2}) fun _ => 0) :
      Answers (fun _ => {0, 1, 2}) g (0, .fetch response) := by
    rintro _ consumer ⟨⟩ _ read hread batch hbatch offset hoffset _ hlt
    exact h read hread batch hbatch offset hoffset (Nat.zero_le _) hlt
  refine ⟨hother (by simp), hfetched ?_, hother (by simp), hother (by simp), hfetched ?_,
    hother (by simp), hother (by simp), hother (by simp), hother (by simp), trivial⟩
  all_goals
    intro read hread batch hbatch offset hoffset _ hlt
    cases List.mem_singleton.mp hread
    simp only [List.mem_cons, List.not_mem_nil, or_false, RecordBatch.next] at hbatch hlt
    rcases hoffset with rfl | rfl | rfl <;> simp_all [RecordBatch.messages]

theorem committed_records_handled_rejoined :
    (run (Group.step oneRetry) idleGroup rejoined).committed ⟨"snapshots", 0⟩ = some 3 ∧
      ∀ offset ∈ ({0, 1, 2} : Set ℕ), ∃ outcome, (⟨⟨"snapshots", 0⟩, offset⟩, outcome) ∈
        (run (Group.step oneRetry) idleGroup rejoined).outcomes := by
  have hlimit : (run (Group.step oneRetry) idleGroup rejoined).committed ⟨"snapshots", 0⟩ =
      some 3 := by decide
  refine ⟨hlimit, fun offset hoffset => ?_⟩
  have hlt : offset < 3 := by
    rcases hoffset with rfl | rfl | rfl <;> decide
  exact committed_records_handled oneRetry (fun _ => rfl) answers_rejoined hlimit hoffset
    (Nat.zero_le _) hlt

end Talos.Telemetry
