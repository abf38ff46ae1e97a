import Talos.Rust.Redaction

/-!
# The output of a shell command

While a command runs, the runner polls the transcript of the shell. What the terminal shows
of the command beyond what was streamed before is cut into chunks, and every chunk is
redacted and posted by itself.

A wait for the command is a list of polls. The runner may drop a wait while it posts the
chunks of a poll; the next wait then starts with the same chunks again.
-/

namespace Talos.Runner

open Rust

abbrev Text := List Char

/-! ## Lines of the transcript -/

structure ShellCommandMarkers where
  start : Text
  stop : Text

/-- Where in a control sequence the text is. -/
inductive ControlState where
  | text
  | escape
  | sequence

def stripFrom : ControlState → Text → Text
  | _, [] => []
  | .sequence, c :: rest =>
    if '@' ≤ c ∧ c ≤ '~' then stripFrom .text rest else stripFrom .sequence rest
  | .escape, '[' :: rest => stripFrom .sequence rest
  | _, c :: rest =>
    if c = '\x1b' then stripFrom .escape rest
    else if c = '\r' then '\n' :: stripFrom .text rest
    else if c = '\x07' then stripFrom .text rest
    else c :: stripFrom .text rest

def stripShellControlSequences (value : Text) : Text := stripFrom .text value

def lineIsShellRunnerInternal (line : Text) : Bool :=
  let lower := line.map Char.toLower
  contains lower "__talos_cmd_".toList || contains lower "__talos_exit".toList ||
    contains lower "__talosexit".toList

/-- The line without the prompt that it is echoed after, and whether there was one. -/
def shellPromptEchoBody (line : Text) : Text × Bool :=
  let trimmed := trimChars line
  let lower := trimmed.map Char.toLower
  if ">>".toList <+: trimmed then
    ((trimmed.dropWhile (· = '>')).dropWhile isWhitespace, true)
  else if "ps ".toList <+: lower then
    match trimmed.dropWhile (· ≠ '>') with
    | _ :: rest => (rest.dropWhile isWhitespace, true)
    | [] => (trimmed, false)
  else (trimmed, false)

def lineIsShellRunnerWrapperEcho (line : Text) : Bool :=
  let (body, promptEcho) := shellPromptEchoBody line
  let lower := body.map Char.toLower
  (promptEcho && body.isEmpty) ||
    (contains lower "__talos_cmd_".toList || contains lower "__talos_exit".toList ||
      contains lower "__talosexit".toList || contains lower "$__talosexit".toList) ||
    decide (lower = "$global:lastexitcode = $null".toList) ||
    (promptEcho &&
      ["write-error $_".toList, "try \x7b".toList, "\x7d catch \x7b".toList,
        "\x7d".toList].contains lower)

def terminalFrom (markers : ShellCommandMarkers) : Bool → List Text → Text
  | _, [] => []
  | inside, segment :: rest =>
    let cleaned := stripShellControlSequences segment
    if contains cleaned markers.start then terminalFrom markers true rest
    else if contains cleaned markers.stop then []
    else if !inside then terminalFrom markers inside rest
    else if lineIsShellRunnerInternal cleaned || lineIsShellRunnerWrapperEcho cleaned then
      terminalFrom markers inside rest
    else segment ++ terminalFrom markers inside rest

def terminalShellCommandOutput (raw : Text) (markers : ShellCommandMarkers) : Text :=
  terminalFrom markers false (splitInclusive raw)

def cleanFrom (markers : ShellCommandMarkers) : Bool → List Text → List Text
  | _, [] => []
  | inside, line :: rest =>
    if contains line markers.start then cleanFrom markers true rest
    else if contains line markers.stop then []
    else if !inside || line.isEmpty || lineIsShellRunnerInternal line ||
        lineIsShellRunnerWrapperEcho line then
      cleanFrom markers inside rest
    else line :: cleanFrom markers inside rest

def cleanShellCommandOutput (raw : Text) (markers : ShellCommandMarkers) : Text :=
  ['\n'].intercalate (cleanFrom markers false (lines (stripShellControlSequences raw)))

def shellCommandHasEndMarker (raw : Text) (markers : ShellCommandMarkers) : Bool :=
  contains (stripShellControlSequences raw) (markers.stop ++ [':'])

def afterLast (part : Text) : Text → Option Text
  | [] => if part = [] then some [] else none
  | c :: rest =>
    match afterLast part rest with
    | some after => some after
    | none => if part <+: c :: rest then some ((c :: rest).drop part.length) else none

def shellCommandExitCode (raw : Text) (markers : ShellCommandMarkers) : Option ℤ :=
  (afterLast (markers.stop ++ [':']) (stripShellControlSequences raw)).bind fun after =>
    i32FromStr ((after.dropWhile isWhitespace).takeWhile fun c => c.isDigit || c = '-')

def truncateFromEnd (value : Text) (maxChars : ℕ) : Text := value.drop (value.length - maxChars)

/-! ## Chunks -/

/-- The chunk that is being filled, with the number of its characters. -/
def chunksFrom (maxChars : ℕ) : Text → ℕ → Text → List Text
  | chunk, _, [] => if chunk = [] then [] else [chunk]
  | chunk, count, c :: rest =>
    if count = maxChars then chunk :: chunksFrom maxChars [c] 1 rest
    else chunksFrom maxChars (chunk ++ [c]) (count + 1) rest

def chunkTextByChars (value : Text) (maxChars : ℕ) : List Text :=
  chunksFrom (max maxChars 1) [] 0 value

/-! ## Posting -/

def placeholder : Text := "[generated secret redacted]".toList

def redactGeneratedSecrets (text : Text) (secrets : List Text) : Text :=
  redact secrets placeholder text

structure OutputDelta where
  sequence : ℕ
  outputOffset : ℕ
  text : Text
  terminal : Bool
deriving DecidableEq

structure ShellCommandOutputSink where
  redactedSecretValues : List Text
  sequence : ℕ
  outputOffset : ℕ
  /-- What was posted, in order. -/
  posted : List OutputDelta

structure Publication where
  text : Text
  terminal : Bool

variable (sink : ShellCommandOutputSink) (call : Publication)

def ShellCommandOutputSink.publish : ShellCommandOutputSink :=
  let redacted := redactGeneratedSecrets call.text sink.redactedSecretValues
  if redacted.isEmpty && !call.terminal then sink
  else
    { sink with
      sequence := saturatingAdd sink.sequence 1
      outputOffset := saturatingAdd sink.outputOffset redacted.length
      posted := sink.posted ++ [⟨sink.sequence, sink.outputOffset, redacted, call.terminal⟩] }

/-! ## Waiting -/

structure ActiveShellCommand where
  beforeLen : ℕ
  markers : ShellCommandMarkers
  lastStreamedTerminalLen : ℕ

structure Poll where
  cancelled : Bool
  transcript : Text
  exitCode : Option ℕ
  elapsedMs : ℕ
  deadlineReached : Bool
  /-- The wait is dropped when so many chunks of this round are posted. -/
  droppedAfter : Option ℕ

inductive WaitOutcome where
  | completed (output : Text) (exitCode : Option ℤ)
  | checkpoint (output : Text) (elapsedMs remainingMs : ℕ)
  | cancelled
  | shellExited (code : ℕ)
  | timedOut
  /-- The wait was dropped, between two rounds or while it posted. -/
  | dropped
  | panicked
deriving DecidableEq

/-- The chunks that are new in the terminal; none when the offset is inside a character,
where the slice panics. -/
def pendingChunks (chunkChars : ℕ) (active : ActiveShellCommand) (terminalOutput : Text) :
    Option (List Text) :=
  if byteLen terminalOutput > active.lastStreamedTerminalLen then
    (dropBytes active.lastStreamedTerminalLen terminalOutput).map (chunkTextByChars · chunkChars)
  else some []

/-- The rounds of a wait, with the calls of `publish` that it makes. -/
def waitForCommandCheckpoint (chunkChars maxWaitSecs : ℕ) (active : ActiveShellCommand) :
    List Poll → WaitOutcome × ActiveShellCommand × List Publication
  | [] => (.dropped, active, [])
  | poll :: polls =>
    if poll.cancelled then (.cancelled, active, [])
    else
      let rawDelta := (dropBytes active.beforeLen poll.transcript).getD []
      let visibleOutput := cleanShellCommandOutput rawDelta active.markers
      let terminalOutput := terminalShellCommandOutput rawDelta active.markers
      match pendingChunks chunkChars active terminalOutput, poll.droppedAfter with
      | none, _ => (.panicked, active, [])
      | some chunks, some n => (.dropped, active, (chunks.take n).map (⟨·, false⟩))
      | some chunks, none =>
        let published := chunks.map fun chunk => (⟨chunk, false⟩ : Publication)
        let active' :=
          { active with
            lastStreamedTerminalLen :=
              max active.lastStreamedTerminalLen (byteLen terminalOutput) }
        let timeoutMs := max maxWaitSecs 1 * 1000
        let output := truncateFromEnd (trimChars visibleOutput) 4000
        if shellCommandHasEndMarker rawDelta active.markers then
          (.completed output (shellCommandExitCode rawDelta active.markers), active',
            published ++ [⟨[], true⟩])
        else
          match poll.exitCode with
          | some code => (.shellExited code, active', published ++ [⟨[], true⟩])
          | none =>
            if poll.elapsedMs ≥ timeoutMs then
              (.timedOut, active', published ++ [⟨[], true⟩])
            else if poll.deadlineReached then
              (.checkpoint output poll.elapsedMs (timeoutMs - poll.elapsedMs), active',
                published)
            else
              let (outcome, final, later) :=
                waitForCommandCheckpoint chunkChars maxWaitSecs active' polls
              (outcome, final, published ++ later)

/-- What the runner does with the sink during one command. -/
inductive CommandStep where
  | wait (maxWaitSecs : ℕ) (polls : List Poll)
  /-- The `publish("", true)` of the runner itself. -/
  | finish

/-- The calls of `publish` of a command, in order. A panic ends the job. -/
def publications (chunkChars : ℕ) (active : ActiveShellCommand) : List CommandStep →
    List Publication
  | [] => []
  | .finish :: steps => ⟨[], true⟩ :: publications chunkChars active steps
  | .wait maxWaitSecs polls :: steps =>
    match waitForCommandCheckpoint chunkChars maxWaitSecs active polls with
    | (.panicked, _, published) => published
    | (_, active', published) => published ++ publications chunkChars active' steps

/-- A slice of the terminal's view panics. -/
def panics (chunkChars : ℕ) (active : ActiveShellCommand) : List CommandStep → Bool
  | [] => false
  | .finish :: steps => panics chunkChars active steps
  | .wait maxWaitSecs polls :: steps =>
    match waitForCommandCheckpoint chunkChars maxWaitSecs active polls with
    | (.panicked, _, _) => true
    | (_, active', _) => panics chunkChars active' steps

def streamCommand (secrets : List Text) (chunkChars : ℕ) (active : ActiveShellCommand)
    (steps : List CommandStep) : ShellCommandOutputSink :=
  (publications chunkChars active steps).foldl ShellCommandOutputSink.publish ⟨secrets, 0, 0, []⟩

def ShellCommandOutputSink.text : Text :=
  sink.posted.flatMap OutputDelta.text

/-! ## What is posted -/

theorem text_publish : (sink.publish call).text =
      sink.text ++ redactGeneratedSecrets call.text sink.redactedSecretValues := by
  unfold ShellCommandOutputSink.publish
  dsimp only
  split
  next hskip =>
    simp only [Bool.and_eq_true, List.isEmpty_iff] at hskip
    rw [hskip.1, List.append_nil]
  next => simp [ShellCommandOutputSink.text]

theorem redactedSecretValues_publish :
    (sink.publish call).redactedSecretValues = sink.redactedSecretValues := by
  unfold ShellCommandOutputSink.publish
  dsimp only
  split <;> rfl

theorem text_foldl_publish (calls : List Publication) (sink : ShellCommandOutputSink) :
    (calls.foldl ShellCommandOutputSink.publish sink).text =
      sink.text ++ (calls.map Publication.text).flatMap
        (redactGeneratedSecrets · sink.redactedSecretValues) := by
  induction calls generalizing sink with
  | nil => simp
  | cons call calls ih =>
    rw [List.foldl_cons, ih, text_publish, redactedSecretValues_publish, List.map_cons,
      List.flatMap_cons, List.append_assoc]

/-! ## Where the output is cut -/

/-- The characters of a text from each multiple of the size to the next. -/
def blocks (size : ℕ) (text : Text) : List Text :=
  (List.range ((text.length + size - 1) / size)).map fun k => (text.drop (k * size)).take size

variable (command : ActiveShellCommand)

def Poll.rawDelta (poll : Poll) : Text :=
  (dropBytes command.beforeLen poll.transcript).getD []

/-- What the terminal shows of the command at a poll. -/
def Poll.view (poll : Poll) : Text :=
  terminalShellCommandOutput (poll.rawDelta command) command.markers

/-- The wait returns with this poll. -/
def Poll.returns (maxWaitSecs : ℕ) (poll : Poll) : Bool :=
  shellCommandHasEndMarker (poll.rawDelta command) command.markers || poll.exitCode.isSome ||
    decide (max maxWaitSecs 1 * 1000 ≤ poll.elapsedMs) || poll.deadlineReached

/-- The polls of a wait that look at the transcript. -/
def readPolls (command : ActiveShellCommand) (maxWaitSecs : ℕ) : List Poll → List Poll
  | [] => []
  | poll :: polls =>
    if poll.cancelled then []
    else poll :: if poll.droppedAfter.isSome || poll.returns command maxWaitSecs then []
      else readPolls command maxWaitSecs polls

def seen (steps : List CommandStep) : List Poll :=
  steps.flatMap fun
    | .wait maxWaitSecs polls => readPolls command maxWaitSecs polls
    | .finish => []

/-- The pieces in which a view is posted, with the bytes that are streamed then: it is cut where
the longest view before has ended, and from there in blocks. Of a view whose wait is dropped
only the first blocks are posted, and nothing is recorded. Nothing comes of a cut inside a
character. -/
def Poll.cut (size : ℕ) (command : ActiveShellCommand) (streamed : ℕ) (poll : Poll) :
    Option (List Text × ℕ) :=
  if byteLen (poll.view command) ≤ streamed then some ([], streamed)
  else (dropBytes streamed (poll.view command)).map fun new =>
    poll.droppedAfter.elim (blocks size new, byteLen (poll.view command)) fun n =>
      ((blocks size new).take n, streamed)

/-- The pieces of the views one after the other, up to a cut inside a character. -/
def pieces (size : ℕ) (command : ActiveShellCommand) : ℕ → List Poll → Option ℕ × List Text
  | streamed, [] => (some streamed, [])
  | streamed, poll :: polls =>
    match poll.cut size command streamed with
    | none => (none, [])
    | some (texts, next) =>
      ((pieces size command next polls).1, texts ++ (pieces size command next polls).2)

theorem blocks_append {size : ℕ} (hsize : 0 < size) {chunk : Text} (hchunk : chunk.length = size)
    (text : Text) : blocks size (chunk ++ text) = chunk :: blocks size text := by
  have hcount :
      ((chunk ++ text).length + size - 1) / size = (text.length + size - 1) / size + 1 := by
    rw [← Nat.add_div_right _ hsize, List.length_append, hchunk]
    congr 1
    omega
  rw [blocks, hcount, List.range_succ_eq_map, List.map_cons, List.map_map, blocks, Nat.zero_mul,
    List.drop_zero, List.take_left' hchunk]
  refine congrArg _ (List.map_congr_left fun k _ => ?_)
  rw [Function.comp_apply, Nat.succ_mul, Nat.add_comm, ← List.drop_drop, List.drop_left' hchunk]

theorem blocks_of_le {size : ℕ} {chunk : Text} (hchunk : chunk.length ≤ size) :
    blocks size chunk = if chunk = [] then [] else [chunk] := by
  split
  next hnil =>
    have hnone : (size - 1) / size = 0 := by
      rcases Nat.eq_zero_or_pos size with rfl | hsize
      · rfl
      · exact Nat.div_eq_of_lt (by omega)
    rw [hnil, blocks, List.length_nil, Nat.zero_add, hnone]
    rfl
  next hne =>
    have hpos := List.length_pos_iff.mpr hne
    have hone : (chunk.length + size - 1) / size = 1 :=
      Nat.div_eq_of_lt_le (by omega) (by omega)
    rw [blocks, hone]
    simp [hchunk]

theorem chunksFrom_eq_blocks {size : ℕ} (hsize : 0 < size) (text chunk : Text)
    (hchunk : chunk.length ≤ size) :
    chunksFrom size chunk chunk.length text = blocks size (chunk ++ text) := by
  induction text generalizing chunk with
  | nil => rw [chunksFrom, List.append_nil, blocks_of_le hchunk]
  | cons c text ih =>
    rw [chunksFrom]
    split
    next hfull =>
      rw [blocks_append hsize hfull]
      exact congrArg _ (ih [c] hsize)
    next hroom =>
      have hlonger := ih (chunk ++ [c]) (by rw [List.length_append, List.length_singleton]; omega)
      rwa [List.length_append, List.append_assoc] at hlonger

theorem chunkTextByChars_eq (text : Text) (chunkChars : ℕ) :
    chunkTextByChars text chunkChars = blocks (max chunkChars 1) text :=
  chunksFrom_eq_blocks (by omega) text [] (Nat.zero_le _)

variable {chunkChars : ℕ} {command : ActiveShellCommand}

theorem pieces_append (size streamed : ℕ) (first second : List Poll) :
    pieces size command streamed (first ++ second) =
      match pieces size command streamed first with
      | (none, texts) => (none, texts)
      | (some streamed, texts) =>
        ((pieces size command streamed second).1,
          texts ++ (pieces size command streamed second).2) := by
  induction first generalizing streamed with
  | nil => rfl
  | cons poll first ih =>
    rw [List.cons_append, pieces, pieces]
    split
    · rfl
    · rw [ih]
      split <;> simp_all

theorem cut_eq (chunkChars : ℕ) (command : ActiveShellCommand) (streamed : ℕ) (poll : Poll) :
    poll.cut (max chunkChars 1) command streamed =
      (pendingChunks chunkChars { command with lastStreamedTerminalLen := streamed }
        (poll.view command)).map fun chunks =>
          poll.droppedAfter.elim (chunks, max streamed (byteLen (poll.view command))) fun n =>
            (chunks.take n, streamed) := by
  unfold Poll.cut pendingChunks
  by_cases hlen : byteLen (poll.view command) ≤ streamed
  · rw [if_pos hlen, if_neg (by exact not_lt.mpr hlen), max_eq_left hlen]
    cases poll.droppedAfter <;> simp
  · rw [if_neg hlen, if_pos (by exact not_le.mp hlen), max_eq_right (not_le.mp hlen).le,
      Option.map_map]
    simp only [Function.comp_def, chunkTextByChars_eq]

/-- A wait posts the pieces of the polls that it reads, besides empty texts, and goes on from
the bytes that they have streamed. -/
structure Waited (post : Text → Text) (command : ActiveShellCommand)
    (result : WaitOutcome × ActiveShellCommand × List Publication)
    (cut : Option ℕ × List Text) : Prop where
  panicked : result.1 = .panicked ↔ cut.1 = none
  active : ∀ streamed, cut.1 = some streamed →
    result.2.1 = { command with lastStreamedTerminalLen := streamed }
  text : (result.2.2.map Publication.text).flatMap post = cut.2.flatMap post

theorem waited_pieces {post : Text → Text} (hpost : post [] = []) (chunkChars maxWaitSecs : ℕ)
    (command : ActiveShellCommand) (polls : List Poll) (streamed : ℕ) :
    Waited post command
      (waitForCommandCheckpoint chunkChars maxWaitSecs
        { command with lastStreamedTerminalLen := streamed } polls)
      (pieces (max chunkChars 1) command streamed (readPolls command maxWaitSecs polls)) := by
  induction polls generalizing streamed with
  | nil =>
    exact ⟨by simp [waitForCommandCheckpoint, readPolls, pieces], fun _ h => by cases h; rfl, rfl⟩
  | cons poll polls ih =>
    have htexts : ∀ chunks : List Text,
        (chunks.map fun chunk => (⟨chunk, false⟩ : Publication)).map Publication.text = chunks :=
      fun chunks => by simp [Function.comp_def]
    have hcut := cut_eq chunkChars command streamed poll
    have hraw : (dropBytes command.beforeLen poll.transcript).getD [] = poll.rawDelta command := rfl
    have hview : terminalShellCommandOutput (poll.rawDelta command) command.markers =
        poll.view command := rfl
    rw [waitForCommandCheckpoint, readPolls]
    dsimp only
    rw [hraw, hview]
    split
    · exact ⟨by simp [pieces], fun _ h => by cases h; rfl, rfl⟩
    cases hpending : pendingChunks chunkChars { command with lastStreamedTerminalLen := streamed }
      (poll.view command) with
    | none =>
      rw [hpending, Option.map_none] at hcut
      rw [pieces, hcut]
      exact ⟨by simp, by simp, rfl⟩
    | some chunks =>
      rw [hpending, Option.map_some] at hcut
      rw [pieces, hcut]
      cases poll.droppedAfter with
      | some n =>
        simp only [Option.isSome_some, Bool.true_or, if_true, Option.elim_some, pieces,
          List.append_nil]
        exact ⟨by simp, fun _ h => by cases h; rfl, by rw [htexts]⟩
      | none =>
        simp only [Option.isSome_none, Bool.false_or, Option.elim_none]
        cases hreturns : poll.returns command maxWaitSecs with
        | true =>
          simp only [if_true, pieces, List.append_nil]
          split
          · exact ⟨by simp, fun _ h => by cases h; rfl, by simp [htexts, hpost]⟩
          next hend =>
            split
            · exact ⟨by simp, fun _ h => by cases h; rfl, by simp [htexts, hpost]⟩
            next hexit =>
              split_ifs with htime hdeadline
              · exact ⟨by simp, fun _ h => by cases h; rfl, by simp [htexts, hpost]⟩
              · exact ⟨by simp, fun _ h => by cases h; rfl, by rw [htexts]⟩
              · simp only [Poll.returns, hend, hexit, hdeadline, Option.isSome_none, Bool.or_false,
                  Bool.false_or, decide_eq_true_eq] at hreturns
                exact absurd hreturns htime
        | false =>
          simp only [Poll.returns, Bool.or_eq_false_iff, decide_eq_false_iff_not,
            Option.isSome_eq_false_iff, Option.isNone_iff_eq_none] at hreturns
          obtain ⟨⟨⟨hend, hexit⟩, htime⟩, hdeadline⟩ := hreturns
          simp only [hend, hexit, hdeadline, ge_iff_le, htime, Bool.false_eq_true, if_false]
          obtain ⟨hpanicked, hactive, htext⟩ := ih (max streamed (byteLen (poll.view command)))
          exact ⟨hpanicked, hactive,
            by simp only [List.map_append, List.flatMap_append, htexts, htext]⟩

/-- What a whole command posts, and whether it ends in a panic. -/
theorem posted_pieces {post : Text → Text} (hpost : post [] = []) (chunkChars : ℕ)
    (command : ActiveShellCommand) (steps : List CommandStep) (streamed : ℕ) :
    ((publications chunkChars { command with lastStreamedTerminalLen := streamed } steps).map
        Publication.text).flatMap post =
      (pieces (max chunkChars 1) command streamed (seen command steps)).2.flatMap post ∧
    panics chunkChars { command with lastStreamedTerminalLen := streamed } steps =
      (pieces (max chunkChars 1) command streamed (seen command steps)).1.isNone := by
  induction steps generalizing streamed with
  | nil => exact ⟨rfl, rfl⟩
  | cons step steps ih =>
    cases step with
    | finish =>
      obtain ⟨htext, hpanics⟩ := ih streamed
      exact ⟨by simpa [publications, hpost, seen] using htext, hpanics⟩
    | wait maxWaitSecs polls =>
      obtain ⟨hpanicked, hactive, htext⟩ :=
        waited_pieces hpost chunkChars maxWaitSecs command polls streamed
      have hseen : seen command (.wait maxWaitSecs polls :: steps) =
          readPolls command maxWaitSecs polls ++ seen command steps := rfl
      rw [publications, panics, hseen, pieces_append]
      generalize pieces (max chunkChars 1) command streamed (readPolls command maxWaitSecs polls) =
        cut at hpanicked hactive htext ⊢
      generalize waitForCommandCheckpoint chunkChars maxWaitSecs
        { command with lastStreamedTerminalLen := streamed } polls = result
        at hpanicked hactive htext ⊢
      obtain ⟨outcome, final, published⟩ := result
      obtain ⟨_ | next, texts⟩ := cut
      · obtain rfl : outcome = .panicked := hpanicked.mpr rfl
        exact ⟨htext, rfl⟩
      · obtain rfl : final = _ := hactive next rfl
        obtain ⟨hrest, hpanics⟩ := ih next
        cases outcome with
        | panicked => cases hpanicked.mp rfl
        | _ =>
          exact ⟨by simpa only [List.map_append, List.flatMap_append, hrest] using
            congrArg (· ++ _) htext, hpanics⟩

/-- The posted text of a command contains no secret, exactly when none is divided by the ends of
the views or by the blocks in which what is new in a view is posted. -/
theorem streamed_output_hides_secrets_iff (secrets : List Text)
    (hsecrets : ∀ secret ∈ secrets, secret ≠ [])
    (hcharacters : ∀ secret ∈ secrets, ∀ c ∈ secret, c ∉ placeholder)
    (chunkChars : ℕ) (active : ActiveShellCommand) (steps : List CommandStep) :
    (∀ secret ∈ secrets, ¬ secret <:+: (streamCommand secrets chunkChars active steps).text) ↔
      ¬ Divides secrets (pieces (max chunkChars 1) active active.lastStreamedTerminalLen
        (seen active steps)).2 := by
  have hdisjoint : ∀ secret ∈ secrets, ∀ c ∈ placeholder, c ∉ secret :=
    fun secret hmem c hc hin => hcharacters secret hmem c hin hc
  have hplaceholder : placeholder ≠ [] := by decide
  obtain ⟨htext, -⟩ := posted_pieces (redact_nil secrets placeholder) chunkChars active steps
    active.lastStreamedTerminalLen
  rw [← infix_flatMap_redact_iff hsecrets hplaceholder hdisjoint, streamCommand, text_foldl_publish]
  simp only [ShellCommandOutputSink.text, List.flatMap_nil, List.nil_append,
    redactGeneratedSecrets]
  rw [htext]
  simp

/-! ## A secret that is cut -/

def Poll.of (transcript : Text) : Poll := ⟨false, transcript, none, 0, false, none⟩

def listing : ActiveShellCommand :=
  ⟨0, ⟨"__TALOS_CMD_START_0_0_a__".toList, "__TALOS_CMD_END_0_0_a__".toList⟩, 0⟩

def shown : Text :=
  "__TALOS_CMD_START_0_0_a__\nPASS\n__TALOS_CMD_END_0_0_a__:0\n".toList

def seenInTwoPolls : List CommandStep := [.wait 60 [.of (shown.take 28), .of shown]]

/-- In blocks of four the secret is a piece of its own, and no border divides it. -/
theorem not_divides_shown :
    (pieces 4 listing 0 (seen listing [.wait 60 [.of shown]])).2 = ["PASS".toList, ['\n']] ∧
      ¬ Divides ["PASS".toList] (pieces 4 listing 0 (seen listing [.wait 60 [.of shown]])).2 := by
  have hcharacters : "PASS".toList.all (fun c => c ∉ placeholder) = true := by decide
  refine ⟨by decide +kernel, ?_⟩
  exact (streamed_output_hides_secrets_iff ["PASS".toList] (by decide)
    (List.forall_mem_singleton.mpr fun c hc =>
      of_decide_eq_true (List.all_eq_true.mp hcharacters c hc))
    4 listing [.wait 60 [.of shown]]).mp (by decide +kernel)

/-- The secret is posted in two halves, of two polls or of two chunks. -/
theorem streamed_output_shows_secret : shown.take 28 <+: shown ∧
      "PASS".toList <:+: (streamCommand ["PASS".toList] 4000 listing seenInTwoPolls).text ∧
      "PASS".toList <:+: (streamCommand ["PASS".toList] 2 listing [.wait 60 [.of shown]]).text := by
  decide +kernel

end Talos.Runner
