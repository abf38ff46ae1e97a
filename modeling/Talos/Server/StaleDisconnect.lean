import Talos.Server.DirectoryOwner

/-!
# What a stale socket removes

A socket that closes asks the directory whether another socket has replaced it, and if
not it removes the sessions of its agent. Between the question and the removal it waits
for the API and for the locks of the maps. A socket that registers the agent in that time
gets sessions which the cleanup then removes.

The cleanup spares the sessions of a replacement in every run in which no socket
registers an agent while another one cleans up after it, and no socket closes behind
a replacement that is gone already.
-/

namespace Talos.Server

open Interactive Program Transition System

def takenOut : Event Op.Answer → Option String
  | ⟨.disconnectUnlessReplaced agentId _, removed⟩ =>
    if (show Bool from removed) then some agentId else none
  | _ => none

/-- The socket has passed the check of the directory and is removing what the agent has
left. -/
def CleansUpAfter (task : ServerTask) (agentId : String) : Prop :=
  task.rest.head?.isSome ∧ ∃ event ∈ task.history, takenOut event = some agentId

instance (task : ServerTask) (agentId : String) : Decidable (CleansUpAfter task agentId) :=
  inferInstanceAs (Decidable (_ ∧ _))

def insertsAt (kind : SessionKind) (sessionId : String) (entry : ℕ × Event Op.Answer) : Bool :=
  match entry.2.op with
  | .insertSession other otherId _ => other = kind && otherId = sessionId
  | _ => false

/-- When the session was inserted, the last socket to register the agent was another one
than `i`, and `i` has not registered it again since. -/
def InsertedAfterReplacement (log : ServerLog) (i : ℕ) (agentId : String) (kind : SessionKind)
    (sessionId : String) : Prop :=
  (∃ j ∈ lastRegistrant (log.dropWhile fun entry => !insertsAt kind sessionId entry) agentId,
      j ≠ i) ∧
    ∀ entry ∈ log.takeWhile fun entry => !insertsAt kind sessionId entry,
      entry.2.op.registers = some agentId → entry.1 ≠ i

def Op.removes : Op → Option (SessionKind × List String)
  | .removeSessions kind sessionIds => some (kind, sessionIds)
  | _ => none

def Op.takesOut : Op → Option String
  | .disconnectUnlessReplaced agentId _ => some agentId
  | _ => none

/-- What a socket removes from a map when it cleans up is not the session of a
replacement. -/
def SparesReplacements (s : ObservedServer) : ServerAction → Prop
  | .advance i _ => ∀ task ∈ s.pool.tasks[i]?, task.work.sender.isSome →
      ∀ op ∈ task.rest.head?, ∀ removal ∈ op.removes, ∀ event ∈ task.history,
        ∀ agentId ∈ takenOut event, ∀ sessionId ∈ removal.2,
          ((s.pool.memory.sessions removal.1).lookup sessionId).isSome →
          ¬InsertedAfterReplacement s.log i agentId removal.1 sessionId
  | _ => True

/-- No other socket cleans up after an agent that is registered, and a socket that finds
its agent missing was not replaced. -/
structure Undisturbed (s : ObservedServer) (i : ℕ) (op : Op) : Prop where
  registers : ∀ agentId ∈ op.registers, ∀ entry ∈ s.pool.tasks.zipIdx,
    CleansUpAfter entry.1 agentId → entry.2 = i
  takesOut : ∀ agentId ∈ op.takesOut, s.pool.memory.agents.sender agentId = none →
    ∀ j ∈ lastRegistrant s.log agentId, j = i

def UndisturbedCleanup (s : ObservedServer) : ServerAction → Prop
  | .advance i _ => ∀ task ∈ s.pool.tasks[i]?, ∀ op ∈ task.rest.head?, Undisturbed s i op
  | _ => True

section Decide

variable (s : ObservedServer) (i : ℕ)

instance (log : ServerLog) (agentId : String) (kind : SessionKind) (sessionId : String) :
    Decidable (InsertedAfterReplacement log i agentId kind sessionId) :=
  inferInstanceAs (Decidable (_ ∧ _))

instance : (a : ServerAction) → Decidable (SparesReplacements s a)
  | .advance i _ => inferInstanceAs (Decidable (∀ task ∈ s.pool.tasks[i]?, _))
  | .start _ | .internal _ => isTrue trivial

instance (op : Op) : Decidable (Undisturbed s i op) :=
  decidable_of_iff (_ ∧ _) ⟨fun h => ⟨h.1, h.2⟩, fun h => ⟨h.registers, h.takesOut⟩⟩

instance : (a : ServerAction) → Decidable (UndisturbedCleanup s a)
  | .advance i _ => inferInstanceAs (Decidable (∀ task ∈ s.pool.tasks[i]?, _))
  | .start _ | .internal _ => isTrue trivial

end Decide

/-! ## Who registered last -/

theorem InsertedAfterReplacement.last_ne {log : ServerLog} {i : ℕ} {agentId : String}
    {kind : SessionKind} {sessionId : String}
    (hinserted : InsertedAfterReplacement log i agentId kind sessionId) :
    ∃ j, lastRegistrant log agentId = some j ∧ j ≠ i := by
  obtain ⟨⟨j, hj, hne⟩, hlater⟩ := hinserted
  rw [← List.takeWhile_append_dropWhile (p := fun entry => !insertsAt kind sessionId entry)
    (l := log)]
  generalize log.takeWhile (fun entry => !insertsAt kind sessionId entry) = later at hlater ⊢
  induction later with
  | nil => exact ⟨j, hj, hne⟩
  | cons entry later ih =>
    obtain ⟨k, event⟩ := entry
    rw [List.cons_append, lastRegistrant_cons]
    split
    · rename_i hregisters
      exact ⟨k, rfl, hlater (k, event) List.mem_cons_self hregisters⟩
    · exact ih fun entry hmem => hlater entry (List.mem_cons_of_mem _ hmem)

/-- An entry of the directory is that of the last registrant, and a socket that cleans
up after an agent was not replaced. -/
structure Unreplaced (s : ObservedServer) : Prop extends Tracked s where
  entry : ∀ agentId sender, s.pool.memory.agents.sender agentId = some sender →
    ∃ (j : ℕ) (task : ServerTask), lastRegistrant s.log agentId = some j ∧
      s.pool.tasks[j]? = some task ∧ task.work.sender = some sender
  cleanup : ∀ (i : ℕ) (task : ServerTask) (agentId : String), s.pool.tasks[i]? = some task →
    CleansUpAfter task agentId → ∀ j, lastRegistrant s.log agentId = some j → j = i

section Unreplaced

variable {config : Config} {s : ObservedServer}

theorem unreplaced_start : Unreplaced ObservedServer.start where
  toTracked := tracked_start
  entry _ _ hsender := nomatch hsender
  cleanup _ _ _ htask := nomatch htask

theorem Unreplaced.spares (hs : Unreplaced s) (a : ServerAction) : SparesReplacements s a := by
  cases a with
  | start work => trivial
  | internal reap => trivial
  | advance i outside =>
    intro task htask _ op hop _ _ event hmem agentId hout _ _ _ hinserted
    obtain ⟨j, hlast, hne⟩ := hinserted.last_ne
    have hcleans : CleansUpAfter task agentId := ⟨Option.isSome_of_mem hop, event, hmem, hout⟩
    exact hne (hs.cleanup i task agentId htask hcleans j hlast)

variable {agentId : String}

theorem Maps.sender_perform {outside : (op : Op) → op.Answer} {maps : Maps} {op : Op} {sender : ℕ}
    (hsender : (maps.perform outside op).2.agents.sender agentId = some sender) :
    (∃ registration, op = .registerAgent agentId registration ∧ registration.sender = sender) ∨
      (op.registers ≠ some agentId ∧ maps.agents.sender agentId = some sender) := by
  by_cases henlists : op.enlists = false
  · rw [Maps.agents_perform outside maps henlists] at hsender
    exact .inr ⟨by simp [Op.registers_of_not_enlists henlists], hsender⟩
  · cases op with
    | registerAgent registered registration =>
      rw [perform, AgentDirectory.sender_register] at hsender
      split at hsender
      · rename_i hsame
        subst hsame
        exact .inl ⟨registration, rfl, Option.some.inj hsender⟩
      · rename_i hother
        exact .inr ⟨fun hsame => hother (Option.some.inj hsame).symm, hsender⟩
    | disconnectUnlessReplaced left other =>
      have hleft := AgentDirectory.sender_disconnect maps.agents left agentId other
      rw [show (maps.agents.disconnectUnlessReplaced left other).2.sender agentId = some sender
        from hsender] at hleft
      split at hleft
      · cases hleft
      · exact .inr ⟨(fun h => by cases h), hleft.symm⟩
    | _ => exact absurd rfl henlists

variable {a : ServerAction}

theorem Unreplaced.entry_of_kept (hs : Unreplaced s) {sender : ℕ}
    (hsender : s.pool.memory.agents.sender agentId = some sender) :
    ∃ (j : ℕ) (task : ServerTask), lastRegistrant s.log agentId = some j ∧
      ((server config).observe s a).pool.tasks[j]? = some task ∧
        task.work.sender = some sender := by
  obtain ⟨j, old, hlast, hold, hwork⟩ := hs.entry agentId sender hsender
  obtain ⟨task, htask, hsame, -⟩ := persists (server config) a hold
  exact ⟨j, task, hlast, htask, hsame ▸ hwork⟩

theorem Unreplaced.entry_observe (hs : Unreplaced s) {sender : ℕ}
    (hsender : ((server config).observe s a).pool.memory.agents.sender agentId = some sender) :
    ∃ (j : ℕ) (task : ServerTask),
      lastRegistrant ((server config).observe s a).log agentId = some j ∧
      ((server config).observe s a).pool.tasks[j]? = some task ∧
        task.work.sender = some sender := by
  rcases observe_cases (server config) s a with ⟨hlog, hmemory, -⟩ |
    ⟨i, outside, task, op, next, -, htask, hrest, heq⟩
  · rw [hlog]
    refine hs.entry_of_kept ?_
    rcases hmemory with hsame | ⟨reap, hreap⟩
    · rwa [hsame] at hsender
    · rw [hreap] at hsender
      exact hsender
  · rw [heq] at hsender
    rcases Maps.sender_perform hsender with ⟨registration, rfl, rfl⟩ | ⟨hother, hbefore⟩
    · have hown := (hs.own task (List.mem_of_getElem? htask)).next hrest
      rw [heq]
      refine ⟨i, _, ?_, List.getElem?_set_self (List.getElem?_eq_some_iff.mp htask).1, hown⟩
      rw [lastRegistrant_cons]
      exact if_pos rfl
    · obtain ⟨j, kept, hlast, hkept, hwork⟩ := @entry_of_kept config s _ a hs _ hbefore
      refine ⟨j, kept, ?_, hkept, hwork⟩
      rw [heq, lastRegistrant_cons, if_neg hother, hlast]

variable {task : ServerTask}

/-- A socket that passes the check of the directory has registered the agent last, or
nobody has. -/
theorem Unreplaced.last_of_takenOut (hs : Unreplaced s) {i : ℕ}
    (htask : s.pool.tasks[i]? = some task) {op : Op} {next : op.Answer → Handler Unit}
    (hrest : task.rest = .call op next) {outside : (op : Op) → op.Answer}
    (hundisturbed : UndisturbedCleanup s (.advance i outside))
    (hout : takenOut ⟨op, (s.pool.memory.perform outside op).1⟩ = some agentId) :
    ∀ j, lastRegistrant s.log agentId = some j → j = i := by
  intro j hlast
  cases op with
  | disconnectUnlessReplaced left sender =>
    have hremoved : (s.pool.memory.agents.disconnectUnlessReplaced left sender).1 = true ∧
        left = agentId := by
      rw [takenOut] at hout
      split at hout
      · exact ⟨‹_›, Option.some.inj hout⟩
      · exact nomatch hout
    obtain ⟨hremoved, rfl⟩ := hremoved
    rcases (AgentDirectory.disconnect_fst _ _ _).mp hremoved with hnone | hsome
    · exact (hundisturbed task htask _ (by rw [hrest]; rfl)).takesOut left rfl hnone j hlast
    · obtain ⟨k, owner, howner, hownerTask, hwork⟩ := hs.entry left sender hsome
      cases hlast.symm.trans howner
      exact hs.distinct _ _ owner task sender hownerTask htask hwork
        ((hs.own task (List.mem_of_getElem? htask)).next hrest)
  | _ => exact nomatch hout

theorem Unreplaced.cleanup_observe (hs : Unreplaced s) (hundisturbed : UndisturbedCleanup s a)
    {i : ℕ} (htask : ((server config).observe s a).pool.tasks[i]? = some task)
    (hcleans : CleansUpAfter task agentId) :
    ∀ j, lastRegistrant ((server config).observe s a).log agentId = some j → j = i := by
  intro j hlast
  cases origin htask with
  | begun work => exact nomatch hcleans.2.choose_spec.1
  | kept hkept =>
    rcases observe_cases (server config) s a with ⟨hlog, -, -⟩ |
      ⟨k, outside, old, op, next, rfl, hold, hrest, heq⟩
    · rw [hlog] at hlast
      exact hs.cleanup i task agentId hkept hcleans j hlast
    · rw [heq, lastRegistrant_cons] at hlast
      split at hlast
      · -- a registration by another task would have found this one cleaning up
        rename_i hregisters
        have hsame : i = k := (hundisturbed old hold op (by rw [hrest]; rfl)).registers agentId
          hregisters (task, i) (List.mem_zipIdx_iff_getElem?.mpr hkept) hcleans
        exact (Option.some.inj hlast).symm.trans hsame.symm
      · exact hs.cleanup i task agentId hkept hcleans j hlast
  | answered hold hrest =>
    rename_i outside old op next
    rw [observe_advance hold hrest, lastRegistrant_cons] at hlast
    split at hlast
    · exact (Option.some.inj hlast).symm
    · obtain ⟨-, event, hmem, hout⟩ := hcleans
      rcases List.mem_append.mp hmem with hbefore | hnew
      · exact hs.cleanup i old agentId hold ⟨by rw [hrest]; rfl, event, hbefore, hout⟩ j hlast
      · rw [List.mem_singleton.mp hnew] at hout
        exact hs.last_of_takenOut hold hrest hundisturbed hout j hlast

theorem Unreplaced.observe (hs : Unreplaced s) (hchannel : OwnChannel s a)
    (hundisturbed : UndisturbedCleanup s a) : Unreplaced ((server config).observe s a) where
  toTracked := hs.toTracked.observe hchannel
  entry _ _ hsender := hs.entry_observe hsender
  cleanup _ _ _ htask hcleans := hs.cleanup_observe hundisturbed htask hcleans

end Unreplaced

theorem cleanup_spares_replacements (config : Config) (actions : List ServerAction)
    (hchannel : along (server config).observe OwnChannel ObservedServer.start actions)
    (hundisturbed : along (server config).observe UndisturbedCleanup ObservedServer.start actions) :
    along (server config).observe SparesReplacements ObservedServer.start actions :=
  (along_congr_of_invariant (fun _ _ hs hboth => hs.observe hboth.1 hboth.2)
    (fun _ a hs _ => iff_true_intro (hs.spares a)) unreplaced_start
    (along_and.mpr ⟨hchannel, hundisturbed⟩)).mpr (along_of_forall fun _ _ _ => trivial)

def orderlyDisconnect : List ServerAction :=
  .start (.socket ⟨"registration", 1, false⟩ [.text (hello "one"), .close]) :: advances 0 4
    ++ .start (shellRequest "one" none none) :: advances 1 4
    ++ [.advance 1 (twoOrganizations "session"), .advance 1 (twoOrganizations "secret")]
    ++ advances 1 4 ++ advances 0 10
    ++ .start (.socket ⟨"registration", 2, false⟩ [.text (hello "one")]) :: advances 2 4

theorem cleanup_spares_replacements_orderly :
    along (server ⟨none, none⟩).observe SparesReplacements ObservedServer.start orderlyDisconnect :=
  cleanup_spares_replacements ⟨none, none⟩ orderlyDisconnect (by decide +kernel) (by decide +kernel)

/-! ## A session that a stale socket removes -/

/-- A socket says hello for the agent `one`, closes and takes the agent out of the
directory. A second socket says hello for it and a user opens a shell before the first
one goes on. -/
def staleDisconnect : List ServerAction :=
  .start (.socket ⟨"registration", 1, false⟩ [.text (hello "one"), .close]) :: advances 0 5
    ++ .start (.socket ⟨"registration", 2, false⟩ [.text (hello "one")]) :: advances 1 4
    ++ .start (shellRequest "one" none none) :: advances 2 4
    ++ [.advance 2 (twoOrganizations "session"), .advance 2 (twoOrganizations "secret")]
    ++ advances 2 4 ++ advances 0 3

theorem stale_disconnect_removes_new_session :
    along (server ⟨none, none⟩).observe OwnChannel ObservedServer.start staleDisconnect ∧
      ¬along (server ⟨none, none⟩).observe SparesReplacements ObservedServer.start
        staleDisconnect := by
  decide +kernel

end Talos.Server
