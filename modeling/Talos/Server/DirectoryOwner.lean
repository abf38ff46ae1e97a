import Talos.Server.SessionOwner

/-!
# Who owns an entry of the directory

An agent is in the directory exactly when the socket that registered it last is open, and
the entry has the channel of that socket. This holds as long as every socket speaks for
one agent: a socket keeps one agent id, and when it closes it takes only that agent out.
After a second hello, or a snapshot, telemetry or a credential for another agent, the
entry of the first agent stays behind with a channel that nobody reads.
-/

namespace Talos.Server

open Interactive Program Transition System

/-! ## The directory by its channels -/

def AgentDirectory.sender (agents : AgentDirectory) (agentId : String) : Option ℕ :=
  (agents.lookup agentId).map AgentConnection.sender

variable (agents : AgentDirectory)

theorem AgentDirectory.sender_register (agentId other : String) (registration : AgentRegistration) :
    (agents.register agentId registration).sender other =
      if other = agentId then some registration.sender else agents.sender other := by
  rw [sender, register]
  split
  · rename_i hsame
    rw [hsame, AList.lookup_insert]
    rfl
  · rename_i hother
    rw [AList.lookup_insert_ne hother]
    rfl

theorem AgentDirectory.sender_disconnect (agentId other : String) (sender : ℕ) :
    (agents.disconnectUnlessReplaced agentId sender).2.sender other =
      if other = agentId ∧ agents.sender agentId = some sender then none
      else agents.sender other := by
  rw [disconnectUnlessReplaced]
  rcases hentry : agents.lookup agentId with _ | entry
  · simp [AgentDirectory.sender, hentry]
  · by_cases howner : entry.sender = sender
    · by_cases hother : other = agentId
      · subst hother
        simp [AgentDirectory.sender, hentry, howner]
      · simp [AgentDirectory.sender, howner, hother]
    · simp [AgentDirectory.sender, hentry, howner]

theorem AgentDirectory.disconnect_fst (agentId : String) (sender : ℕ) :
    (agents.disconnectUnlessReplaced agentId sender).1 = true ↔
      agents.sender agentId = none ∨ agents.sender agentId = some sender := by
  rw [disconnectUnlessReplaced]
  rcases hentry : agents.lookup agentId with _ | entry
  · simp [AgentDirectory.sender, hentry]
  · by_cases howner : entry.sender = sender <;> simp [AgentDirectory.sender, hentry, howner]

variable {op : Op}

theorem Maps.agents_perform (outside : (op : Op) → op.Answer) (maps : Maps)
    (hop : op.enlists = false) : (maps.perform outside op).2.agents = maps.agents := by
  cases op with
  | registerAgent | disconnectUnlessReplaced => exact nomatch hop
  | removeSessionOf kind sessionId agentId =>
    rw [perform]
    split
    · rfl
    · split <;> rfl
  | claimSnapshotSlot agentId =>
    rw [perform]
    split <;> rfl
  | _ => rfl

/-! ## Sockets and their channels -/

def Work.sender : Work → Option ℕ
  | .socket opened _ => some opened.sender
  | .request _ => none

/-- The directory is changed for the own channel only. -/
def OwnSender (work : Work) : Op → Prop
  | .registerAgent _ registration => work.sender = some registration.sender
  | .disconnectUnlessReplaced _ sender => work.sender = some sender
  | _ => True

theorem ordinary_ownSender (work : Work) : Ordinary (OwnSender work) where
  holds op _ henlists := by cases op <;> trivial

theorem ownSender_program (config : Config) (work : Work) :
    Within (OwnSender work) (work.program config) := by
  cases work with
  | request incoming =>
    exact (confined_handle (ordinary_ownSender _) (fun _ _ _ _ => trivial) incoming).bind
      fun _ => trivial
  | socket opened frames =>
    exact confined_handleSocket (ordinary_ownSender _) none frames
      (fun _ _ hsender => congrArg some hsender.symm) fun _ => rfl

abbrev ServerLog := List (ℕ × Event Op.Answer)

abbrev ObservedServer := Observed Maps Work Op.Answer AppError Unit

def ObservedServer.start : ObservedServer := ⟨ServerPool.start, []⟩

variable (s : ObservedServer)

/-- Each socket has a channel of its own. -/
def OwnChannel : ServerAction → Prop
  | .start work => ∀ sender ∈ work.sender, ∀ task ∈ s.pool.tasks, task.work.sender ≠ some sender
  | _ => True

instance (s : ObservedServer) : (a : ServerAction) → Decidable (OwnChannel s a)
  | .start work => inferInstanceAs (Decidable (∀ sender ∈ work.sender, _))
  | .advance .. | .internal _ => isTrue trivial

structure Tracked (s : ObservedServer) : Prop where
  own : ∀ task ∈ s.pool.tasks, task.Sound fun work _ op => OwnSender work op
  logged : Logged s
  distinct : ∀ (i j : ℕ) (task other : ServerTask) (sender : ℕ), s.pool.tasks[i]? = some task →
    s.pool.tasks[j]? = some other → task.work.sender = some sender →
    other.work.sender = some sender → i = j

section Tracked

variable {config : Config} {s : ObservedServer}

theorem tracked_start : Tracked ObservedServer.start where
  own _ hmem := nomatch hmem
  logged _ hmem := nomatch hmem
  distinct _ _ _ _ _ htask := nomatch htask

theorem Tracked.observe {a : ServerAction} (htracked : Tracked s) (hchannel : OwnChannel s a) :
    Tracked ((server config).observe s a) where
  own := sound_step (fun work => (ownSender_program config work).safe (fun _ _ _ hop => hop)
    fun _ _ _ _ => trivial) htracked.own a
  logged := htracked.logged.observe a
  distinct i j task other sender htask hother hsender hsender' := by
    rcases work_step htask with ⟨old, hold, hwork⟩ | ⟨ha, rfl⟩ <;>
      rcases work_step hother with ⟨old', hold', hwork'⟩ | ⟨ha', rfl⟩
    · rw [hwork] at hsender
      rw [hwork'] at hsender'
      exact htracked.distinct i j old old' sender hold hold' hsender hsender'
    · subst ha'
      rw [hwork] at hsender
      exact absurd hsender (hchannel sender hsender' old (List.mem_of_getElem? hold))
    · subst ha
      rw [hwork'] at hsender'
      exact absurd hsender' (hchannel sender hsender old' (List.mem_of_getElem? hold'))
    · rfl

end Tracked

/-! ## The last registration -/

def Op.registers : Op → Option String
  | .registerAgent agentId _ => some agentId
  | _ => none

/-- The task that registered the agent last. -/
def lastRegistrant (log : ServerLog) (agentId : String) : Option ℕ :=
  (log.find? fun entry => entry.2.op.registers = some agentId).map Prod.fst

theorem lastRegistrant_cons (i : ℕ) (event : Event Op.Answer) (log : ServerLog) (agentId : String) :
    lastRegistrant ((i, event) :: log) agentId =
      if event.op.registers = some agentId then some i else lastRegistrant log agentId := by
  by_cases hregisters : event.op.registers = some agentId <;> simp [lastRegistrant, hregisters]

theorem mem_of_lastRegistrant {log : ServerLog} {agentId : String} {i : ℕ}
    (hlast : lastRegistrant log agentId = some i) :
    ∃ event, (i, event) ∈ log ∧ event.op.registers = some agentId := by
  obtain ⟨⟨j, event⟩, hfind, rfl⟩ := Option.map_eq_some_iff.mp hlast
  exact ⟨event, List.mem_of_find?_eq_some hfind, by simpa using List.find?_some hfind⟩

/-! ## Sockets that speak for one agent -/

def Frame.introduces : Frame → Option String
  | .text message => message.introduces
  | _ => none

def Frame.names : Frame → Option String
  | .text message => message.names
  | _ => none

/-- After an agent has introduced itself, no later frame names another one. -/
def Work.SpeaksForOneAgent : Work → Prop
  | .socket _ frames => frames.Pairwise fun earlier later =>
    ∀ agentId ∈ earlier.introduces, ∀ other ∈ later.names, other = agentId
  | .request _ => True

instance : (work : Work) → Decidable work.SpeaksForOneAgent
  | .socket _ frames => inferInstanceAs (Decidable (frames.Pairwise _))
  | .request _ => isTrue trivial

def Registered (h : History) (agentId : String) : Prop :=
  ∃ event ∈ h, event.op.registers = some agentId

def Op.disconnects : Op → Bool
  | .disconnectUnlessReplaced .. => true
  | _ => false

theorem Op.registers_of_not_enlists (hop : op.enlists = false) : op.registers = none := by
  cases op with
  | registerAgent => exact nomatch hop
  | _ => rfl

theorem Op.disconnects_of_not_enlists (hop : op.enlists = false) : op.disconnects = false := by
  cases op with
  | disconnectUnlessReplaced => exact nomatch hop
  | _ => rfl

def Disconnected (h : History) : Bool := h.any fun event => event.op.disconnects

/-- A socket registers before it disconnects, and disconnects the agent it has
registered. -/
def OneAgent (h : History) : Op → Prop
  | .registerAgent .. => Disconnected h = false
  | .disconnectUnlessReplaced agentId _ => ∀ other, Registered h other → other = agentId
  | _ => True

theorem ordinary_oneAgent (henlists : op.enlists = false) (h : History) :
    OneAgent h op := by
  cases op <;> trivial

section OneAgent

variable {h : History} {answer : op.Answer}

theorem registered_concat {agentId : String} :
    Registered (h ++ [⟨op, answer⟩]) agentId ↔
      Registered h agentId ∨ op.registers = some agentId := by
  simp [Registered, or_and_right, exists_or]

theorem disconnected_concat :
    Disconnected (h ++ [⟨op, answer⟩]) = (Disconnected h || op.disconnects) := by
  simp [Disconnected]

/-- The history registers what `h` registers, and disconnects nobody. -/
structure Unlisted (h h' : History) : Prop where
  registered : ∀ agentId, Registered h' agentId → Registered h agentId
  disconnected : Disconnected h' = Disconnected h

theorem Unlisted.concat {h' : History} (hsame : Unlisted h h')
    (hop : op.enlists = false) (answer : op.Answer) : Unlisted h (h' ++ [⟨op, answer⟩]) where
  registered agentId hregistered := by
    rcases registered_concat.mp hregistered with hold | hnew
    · exact hsame.registered agentId hold
    · rw [Op.registers_of_not_enlists hop] at hnew
      exact nomatch hnew
  disconnected := by
    rw [disconnected_concat, hsame.disconnected, Op.disconnects_of_not_enlists hop, Bool.or_false]

theorem safe_of_unlisted {α : Type} {p : Handler α} {S : Except AppError α → Prop}
    (hp : Confined (fun op : Op => op.enlists = false) p S) :
    Safe OneAgent h p fun h' outcome => Unlisted h h' ∧ S outcome :=
  hp.safe_of_invariant (fun _ _ answer hsame hop => hsame.concat hop answer)
    (fun h' _ _ hop => ordinary_oneAgent hop h') (fun _ _ hsame hout => ⟨hsame, hout⟩)
    ⟨fun _ hregistered => hregistered, rfl⟩

theorem unlisted_ordinary : Ordinary fun op : Op => op.enlists = false := ⟨fun _ _ hop => hop⟩

variable {current : Option String} {socket : Socket}

/-- A message registers the agent that it introduces, if it registers one at all. -/
theorem safe_handleAgentMessage {message : AgentMessage} (hopen : Disconnected h = false) :
    Safe OneAgent h (handleAgentMessage socket current message) fun h' outcome =>
      Disconnected h' = false ∧
        match outcome with
        | .error _ => ∀ agentId, Registered h' agentId → Registered h agentId
        | .ok after => after = message.names.or current ∧ ∀ agentId, Registered h' agentId →
            Registered h agentId ∨ message.introduces = some agentId := by
  cases hintroduces : message.introduces with
  | some agentId =>
    obtain ⟨enroll, registration, heq, -, hordinary⟩ := introduces_eq socket current hintroduces
    rw [heq, AgentMessage.names_of_introduces hintroduces]
    refine (safe_of_unlisted (hordinary unlisted_ordinary)).bind (fun h' _ _ hsame => ?_)
      fun h' _ _ hsame => ⟨hsame.1.disconnected.trans hopen, hsame.1.registered⟩
    have hstill := hsame.1.disconnected.trans hopen
    refine ⟨hstill, fun _ => ⟨?_, rfl, fun other hregistered => ?_⟩⟩
    · rw [disconnected_concat, hstill]
      rfl
    · exact (registered_concat.mp hregistered).imp (hsame.1.registered other) fun hnew => hnew
  | none =>
    refine (safe_of_unlisted (confined_handleAgentMessage unlisted_ordinary
      fun agentId _ hsome => nomatch hintroduces.symm.trans hsome)).mono
        fun h' outcome _ ⟨hsame, hout⟩ => ⟨hsame.disconnected.trans hopen, ?_⟩
    cases outcome with
    | error e => exact hsame.registered
    | ok after => exact ⟨hout after rfl, fun other hother => .inl (hsame.registered other hother)⟩

/-- A socket that has registered an agent has disconnected when it ends. -/
def Leaves (h : History) : Prop :=
  ∀ agentId, Registered h agentId → Disconnected h = true

theorem safe_closeSocket {sender : ℕ}
    (hcurrent : ∀ agentId, Registered h agentId → current = some agentId) :
    Safe OneAgent h (closeSocket sender current) fun h' _ => Leaves h' := by
  cases current with
  | none => exact fun agentId hregistered => nomatch hcurrent agentId hregistered
  | some agentId =>
    refine ⟨fun other hother => (Option.some.inj (hcurrent other hother)).symm, fun answer => ?_⟩
    refine (safe_of_unlisted (confined_cleanup unlisted_ordinary agentId answer)).mono
      fun h' _ _ ⟨hsame, _⟩ _ _ => ?_
    rw [hsame.disconnected, disconnected_concat]
    exact Bool.or_true _

/-- The agent id is that of the socket, and the frames that are left name no other. -/
def SpeaksFor (current : Option String) (frames : List Frame) (agentId : String) : Prop :=
  current = some agentId ∧ ∀ frame ∈ frames, ∀ other ∈ frame.names, other = agentId

theorem safe_handleSocket {frames : List Frame} (hopen : Disconnected h = false)
    (hcurrent : ∀ agentId, Registered h agentId → SpeaksFor current frames agentId)
    (hframes : (Work.socket socket frames).SpeaksForOneAgent) :
    Safe OneAgent h (handleSocket socket current frames) fun h' _ => Leaves h' := by
  induction frames generalizing h current with
  | nil => exact safe_closeSocket fun agentId hregistered => (hcurrent agentId hregistered).1
  | cons frame frames ih =>
    obtain ⟨hfirst, hlater⟩ := List.pairwise_cons.mp hframes
    have hrest : ∀ agentId, Registered h agentId → SpeaksFor current frames agentId :=
      fun agentId hregistered => ⟨(hcurrent agentId hregistered).1, fun later hmem =>
        (hcurrent agentId hregistered).2 later (List.mem_cons_of_mem _ hmem)⟩
    cases frame with
    | ignored => exact ih hopen hrest hlater
    | close => exact safe_closeSocket fun agentId hregistered => (hrest agentId hregistered).1
    | text message =>
      refine safe_bind_iff.mpr (safe_attempt.mpr ((safe_handleAgentMessage hopen).mono ?_))
      rintro h' (e | after) - ⟨hstill, hmid⟩
      · exact safe_closeSocket fun agentId hregistered =>
          (hrest agentId (hmid agentId hregistered)).1
      · obtain ⟨rfl, hregisters⟩ := hmid
        -- what was registered before, the frame does not change; what it registers, it names
        have hnext : ∀ agentId, Registered h' agentId →
            SpeaksFor (message.names.or current) frames agentId := by
          intro agentId hregistered
          rcases hregisters agentId hregistered with hold | hnew
          · refine ⟨?_, (hrest agentId hold).2⟩
            cases hnames : message.names with
            | none => exact (hrest agentId hold).1
            | some other =>
              have hsame := (hcurrent agentId hold).2 _ List.mem_cons_self other hnames
              exact congrArg some hsame
          · refine ⟨?_, fun frame hmem => hfirst frame hmem agentId hnew⟩
            rw [AgentMessage.names_of_introduces hnew]
            rfl
        exact ih hstill hnext hlater

theorem safe_program (config : Config) {work : Work} (hone : work.SpeaksForOneAgent) :
    Safe OneAgent [] (work.program config) fun h _ => Leaves h := by
  cases work with
  | request incoming =>
    refine (safe_of_unlisted (confined_handle unlisted_ordinary (fun _ _ _ _ => rfl) incoming)).bind
      (fun h' _ _ hmid => ?_) fun h' _ _ hmid => ?_ <;>
    · rintro agentId hregistered
      obtain ⟨event, hmem, -⟩ := hmid.1.registered agentId hregistered
      exact nomatch hmem
  | socket opened frames =>
    exact safe_handleSocket rfl (fun _ ⟨_, hmem, _⟩ => nomatch hmem) hone

end OneAgent

/-! ## The directory in a run -/

/-- The socket is open and has not disconnected. -/
def held (task : ServerTask) : Option ℕ :=
  if Disconnected task.history then none else task.work.sender

/-- The channel of the last registrant, until it disconnects. -/
def holder (agentId : String) : Option ℕ :=
  (lastRegistrant s.log agentId).bind fun i => s.pool.tasks[i]?.bind held

/-- What is known in every run of sockets that speak for one agent each. -/
structure Attributed (s : ObservedServer) : Prop extends Tracked s where
  single : ∀ task ∈ s.pool.tasks, task.work.SpeaksForOneAgent
  rules : ∀ task ∈ s.pool.tasks, task.Sound fun work h op => work.SpeaksForOneAgent → OneAgent h op
  leaves : ∀ task ∈ s.pool.tasks, task.Ends fun work h _ => work.SpeaksForOneAgent → Leaves h
  holds : ∀ agentId, s.pool.memory.agents.sender agentId = holder s agentId

/-- Every socket that is started speaks for one agent. -/
def OneAgentEach (_ : ObservedServer) : ServerAction → Prop
  | .start work => work.SpeaksForOneAgent
  | _ => True

instance (s : ObservedServer) : (a : ServerAction) → Decidable (OneAgentEach s a)
  | .start work => inferInstanceAs (Decidable work.SpeaksForOneAgent)
  | .advance .. | .internal _ => isTrue trivial

section Attributed

variable {config : Config} {s : ObservedServer} {i : ℕ}

theorem Tracked.registered_of_last (htracked : Tracked s) {agentId : String}
    (hlast : lastRegistrant s.log agentId = some i) :
    ∃ task, s.pool.tasks[i]? = some task ∧ Registered task.history agentId := by
  obtain ⟨event, hmem, hregisters⟩ := mem_of_lastRegistrant hlast
  obtain ⟨task, htask, hevent⟩ := htracked.logged _ hmem
  exact ⟨task, htask, event, hevent, hregisters⟩

theorem held_answered (task : ServerTask) (op : Op) (answer : op.Answer)
    (next : op.Answer → Handler Unit) :
    held (task.answered op answer next) = if op.disconnects then none else held task := by
  rw [held, Task.answered, disconnected_concat]
  cases op.disconnects <;> simp [held]

variable {task : ServerTask}

theorem holder_acted (htask : s.pool.tasks[i]? = some task) (maps : Maps) (op : Op)
    (answer : op.Answer) (next : op.Answer → Handler Unit) (agentId : String) :
    holder ⟨⟨maps, s.pool.tasks.set i (task.answered op answer next)⟩, (i, ⟨op, answer⟩) :: s.log⟩
        agentId =
      (if op.registers = some agentId then some i else lastRegistrant s.log agentId).bind fun j =>
        if j = i ∧ op.disconnects then none else s.pool.tasks[j]?.bind held := by
  rw [holder, lastRegistrant_cons]
  congr 1
  funext j
  by_cases hj : j = i
  · subst hj
    rw [List.getElem?_set_self (List.getElem?_eq_some_iff.mp htask).1, htask]
    simp [held_answered]
  · rw [List.getElem?_set_ne (Ne.symm hj)]
    simp [hj]

/-- A socket that disconnects takes out the agent it has registered, if nobody has
replaced it. -/
theorem Attributed.holds_disconnect (hs : Attributed s) (htask : s.pool.tasks[i]? = some task)
    {left : String} {sender : ℕ} (hown : task.work.sender = some sender)
    (hrule : ∀ other, Registered task.history other → other = left) (agentId : String) :
    (s.pool.memory.agents.disconnectUnlessReplaced left sender).2.sender agentId =
      (lastRegistrant s.log agentId).bind fun j =>
        if j = i ∧ true then none else s.pool.tasks[j]?.bind held := by
  rw [AgentDirectory.sender_disconnect, hs.holds, hs.holds]
  cases hlast : lastRegistrant s.log agentId with
  | none => simp [holder, hlast]
  | some j =>
    obtain ⟨last, hlastTask, hregistered⟩ := hs.registered_of_last hlast
    have hholder : holder s agentId = held last := by simp [holder, hlast, hlastTask]
    by_cases hj : j = i
    · subst hj
      cases htask.symm.trans hlastTask
      obtain rfl := hrule agentId hregistered
      rw [hholder, held]
      cases Disconnected task.history <;> simp [hown]
    · -- the entry of another socket has another channel
      have hother : ¬(agentId = left ∧ holder s left = some sender) := by
        rintro ⟨rfl, hsame⟩
        rw [hholder, held] at hsame
        split at hsame
        · exact nomatch hsame
        · exact hj (hs.distinct j i last task sender hlastTask htask hsame hown)
      rw [if_neg hother, hholder]
      simp [hj, hlastTask]

variable {a : ServerAction}

theorem Attributed.holds_observe (hs : Attributed s) (agentId : String) :
    ((server config).observe s a).pool.memory.agents.sender agentId =
      holder ((server config).observe s a) agentId := by
  rcases observe_cases (server config) s a with ⟨hlog, hmemory, htasks⟩ |
    ⟨i, outside, task, op, next, -, htask, hrest, heq⟩
  · have hagents : ((server config).observe s a).pool.memory.agents = s.pool.memory.agents := by
      rcases hmemory with hsame | ⟨reap, hreap⟩
      · rw [hsame]
      · rw [hreap]
        rfl
    rw [hagents, hs.holds, holder, holder, hlog]
    cases hlast : lastRegistrant s.log agentId with
    | none => rfl
    | some j =>
      obtain ⟨task, htask, -⟩ := hs.registered_of_last hlast
      rw [Option.bind_some, Option.bind_some, htask, htasks j task htask]
  · rw [heq, holder_acted htask]
    have hmem := List.mem_of_getElem? htask
    have hown := (hs.own task hmem).next hrest
    have hrule := (hs.rules task hmem).next hrest (hs.single task hmem)
    by_cases henlists : op.enlists = false
    · rw [Op.registers_of_not_enlists henlists, Op.disconnects_of_not_enlists henlists]
      change (Maps.perform outside s.pool.memory op).2.agents.sender agentId = _
      rw [Maps.agents_perform outside _ henlists, hs.holds]
      simp [holder]
    · cases op with
      | registerAgent registered registration =>
        change (s.pool.memory.agents.register registered registration).sender agentId = _
        rw [AgentDirectory.sender_register]
        by_cases hsame : agentId = registered
        · subst hsame
          simp [Op.registers, Op.disconnects, htask, held, show Disconnected _ = false from hrule,
            show _ = some registration.sender from hown]
        · simp [Op.registers, Op.disconnects, hsame, Ne.symm hsame, hs.holds, holder]
      | disconnectUnlessReplaced left sender =>
        change (s.pool.memory.agents.disconnectUnlessReplaced left sender).2.sender agentId = _
        exact hs.holds_disconnect htask hown hrule agentId
      | _ => exact absurd rfl henlists

theorem attributed_start : Attributed ObservedServer.start where
  toTracked := tracked_start
  single _ hmem := nomatch hmem
  rules _ hmem := nomatch hmem
  leaves _ hmem := nomatch hmem
  holds _ := rfl

theorem Attributed.observe (hs : Attributed s) (hchannel : OwnChannel s a)
    (hone : OneAgentEach s a) : Attributed ((server config).observe s a) where
  toTracked := hs.toTracked.observe hchannel
  single task hmem := by
    obtain ⟨j, htask⟩ := List.mem_iff_getElem?.mp hmem
    rcases work_step htask with ⟨old, hold, hwork⟩ | ⟨rfl, -⟩
    · rw [hwork]
      exact hs.single old (List.mem_of_getElem? hold)
    · exact hone
  rules := by
    refine sound_step (fun work => ?_) hs.rules a
    by_cases hwork : work.SpeaksForOneAgent
    · exact (safe_program config hwork).imp (fun _ _ hop _ => hop) fun _ _ _ => trivial
    · exact (confined_true _).safe (fun _ _ _ _ h => absurd h hwork) fun _ _ _ _ => trivial
  leaves := by
    refine ends_step (fun work => ?_) hs.leaves a
    by_cases hwork : work.SpeaksForOneAgent
    · exact (safe_program config hwork).imp (fun _ _ _ => trivial) fun _ _ hleaves _ => hleaves
    · exact (confined_true _).safe (fun _ _ _ _ => trivial) fun _ _ _ _ h => absurd h hwork
  holds := hs.holds_observe

end Attributed

/-! ## The last registrant owns the entry -/

def openSender (task : ServerTask) : Option ℕ :=
  if task.rest.head?.isSome then task.work.sender else none

/-- No socket is in the middle of its disconnect: it has ended, or not begun to take its
agent out. -/
def Settled : Prop :=
  ∀ task ∈ s.pool.tasks, task.rest.head?.isSome → Disconnected task.history = false

instance (s : ObservedServer) : Decidable (Settled s) :=
  inferInstanceAs (Decidable (∀ task ∈ s.pool.tasks, _))

/-- The directory has an entry for an agent exactly when the socket that registered it
last is open, with the channel of that socket. -/
def OwnedByLastRegistrant : Prop :=
  ∀ agentId, s.pool.memory.agents.sender agentId =
    (lastRegistrant s.log agentId).bind fun i => s.pool.tasks[i]?.bind openSender

theorem directory_owned_of_one_agent_each (config : Config) (actions : List ServerAction)
    (hchannel : along (server config).observe OwnChannel ObservedServer.start actions)
    (hone : along (server config).observe OneAgentEach ObservedServer.start actions)
    (hsettled : Settled (run (server config).observe ObservedServer.start actions)) :
    OwnedByLastRegistrant (run (server config).observe ObservedServer.start actions) := by
  have hs : Attributed (run (server config).observe ObservedServer.start actions) :=
    run_invariant_along (fun _ _ hs hboth => hs.observe hboth.1 hboth.2) attributed_start
      (along_and.mpr ⟨hchannel, hone⟩)
  intro agentId
  rw [hs.holds, holder]
  cases hlast : lastRegistrant _ agentId with
  | none => rfl
  | some i =>
    obtain ⟨task, htask, hregistered⟩ := hs.registered_of_last hlast
    have hmem := List.mem_of_getElem? htask
    rw [Option.bind_some, Option.bind_some, htask, Option.bind_some, Option.bind_some, held,
      openSender]
    -- a socket that has registered has disconnected exactly when it has ended
    cases hrest : task.rest with
    | done outcome =>
      rw [(hs.leaves task hmem).done hrest (hs.single task hmem) agentId hregistered]
      rfl
    | call op next =>
      rw [hsettled task hmem (by rw [hrest]; rfl)]
      rfl

/-- Two sockets say hello for the agent `one`, and the first one closes. -/
def replacedSocket : List ServerAction :=
  .start (.socket ⟨"registration", 1, false⟩ [.text (hello "one"), .close]) :: advances 0 4
    ++ .start (.socket ⟨"registration", 2, false⟩ [.text (hello "one")]) :: advances 1 4
    ++ advances 0 1

theorem directory_owned_of_one_agent_each_replaced :
    OwnedByLastRegistrant (run (server ⟨none, none⟩).observe ObservedServer.start replacedSocket) ∧
      (run (server ⟨none, none⟩).observe ObservedServer.start
        replacedSocket).pool.memory.agents.sender "one" = some 2 :=
  ⟨directory_owned_of_one_agent_each ⟨none, none⟩ replacedSocket (by decide +kernel)
    (by decide +kernel) (by decide +kernel), by decide +kernel⟩

/-! ## A socket with two agents -/

/-- A socket says hello for the agent `one` and for the agent `two`, closes, and cleans
up to the end. -/
def twoHellos : List ServerAction :=
  .start (.socket ⟨"registration", 1, false⟩ [.text (hello "one"), .text (hello "two"), .close])
    :: advances 0 15

theorem closed_socket_stays_in_directory :
    along (server ⟨none, none⟩).observe OwnChannel ObservedServer.start twoHellos ∧
      Settled (run (server ⟨none, none⟩).observe ObservedServer.start twoHellos) ∧
      (run (server ⟨none, none⟩).observe ObservedServer.start twoHellos).pool.tasks.all
        (fun task => task.rest.head?.isNone) ∧
      ¬OwnedByLastRegistrant (run (server ⟨none, none⟩).observe ObservedServer.start
        twoHellos) := by
  have hentry : (run (server ⟨none, none⟩).observe ObservedServer.start
      twoHellos).pool.memory.agents.sender "one" = some 1 := by decide +kernel
  have hclosed : ((lastRegistrant (run (server ⟨none, none⟩).observe ObservedServer.start
      twoHellos).log "one").bind fun i => (run (server ⟨none, none⟩).observe ObservedServer.start
        twoHellos).pool.tasks[i]?.bind openSender) = none := by decide +kernel
  refine ⟨by decide +kernel, by decide +kernel, by decide +kernel, fun howned => ?_⟩
  exact nomatch hentry.symm.trans ((howned "one").trans hclosed)

end Talos.Server
