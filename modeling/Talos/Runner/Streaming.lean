import Mathlib.Data.List.DropRight
import Talos.Runner.ShellOutput

/-!
# Streaming without loss

The runner remembers how many bytes of the terminal's view it has streamed. The view is
filtered by lines, so a line that is shown while it is incomplete can be hidden once it is
complete, and then the view no longer extends what was streamed. While no line does that, the
views of a growing transcript extend one another, and every wait posts what is new.
-/

namespace Talos.Runner

open Rust

/-- No slice has panicked, and the view of the last transcript seen was posted. -/
def Streamed (chunkChars : ℕ) (active : ActiveShellCommand) (steps : List CommandStep) : Prop :=
  panics chunkChars active steps = false ∧
    (streamCommand [] chunkChars active steps).text =
      ((seen active steps).getLast?.map (Poll.view active)).getD []

/-- A line that the terminal shows between the markers. -/
def lineShown (markers : ShellCommandMarkers) (line : Text) : Bool :=
  let cleaned := stripShellControlSequences line
  !(contains cleaned markers.start || contains cleaned markers.stop ||
    lineIsShellRunnerInternal cleaned || lineIsShellRunnerWrapperEcho cleaned)

/-- Whether the text after some lines is between the markers; nothing after the end marker. -/
def insideAfter (markers : ShellCommandMarkers) : Bool → List Text → Option Bool
  | inside, [] => some inside
  | inside, line :: lines =>
    let cleaned := stripShellControlSequences line
    if contains cleaned markers.start then insideAfter markers true lines
    else if contains cleaned markers.stop then none
    else insideAfter markers inside lines

/-- The line at the end of a text that has no line break yet. -/
def lastLine (text : Text) : Text := text.rtakeWhile (· ≠ '\n')

def wholeLines (text : Text) : List Text := splitInclusive (text.rdropWhile (· ≠ '\n'))

/-- The last line of the text, if the terminal shows it before it is complete, is still shown
with what comes after. -/
def KeepsLastLine (markers : ShellCommandMarkers) (text more : Text) : Prop :=
  lastLine text ≠ [] → insideAfter markers false (wholeLines text) = some true →
    lineShown markers (lastLine text) = true →
    lineShown markers (lastLine text ++ (splitInclusive more).headD []) = true

/-- The transcript grows from one poll to the next, and its last line stays. -/
structure Continues (command : ActiveShellCommand) (poll next : Poll) : Prop where
  grows : poll.transcript <+: next.transcript
  keeps : ∀ more, next.rawDelta command = poll.rawDelta command ++ more →
    KeepsLastLine command.markers (poll.rawDelta command) more

/-! ## Lines -/

theorem splitInclusive_append {first : Text} (hfirst : ∀ c ∈ first.getLast?, c = '\n')
    (second : Text) :
    splitInclusive (first ++ second) = splitInclusive first ++ splitInclusive second := by
  induction first with
  | nil => rfl
  | cons c first ih =>
    rw [List.cons_append, splitInclusive, splitInclusive]
    cases first with
    | nil =>
      obtain rfl : c = '\n' := hfirst c rfl
      rfl
    | cons d first =>
      rw [ih fun e he => hfirst e (by rwa [List.getLast?_cons_cons])]
      split
      · rfl
      · have hne : splitInclusive (d :: first) ≠ [] := by
          rw [splitInclusive]
          split
          · exact List.cons_ne_nil _ _
          · split <;> exact List.cons_ne_nil _ _
        obtain ⟨line, lines, hlines⟩ := List.exists_cons_of_ne_nil hne
        rw [hlines]
        rfl

theorem splitInclusive_line {line : Text} (hline : ∀ c ∈ line, c ≠ '\n') (hne : line ≠ [])
    (more : Text) : splitInclusive (line ++ more) =
      (line ++ (splitInclusive more).headD []) :: (splitInclusive more).tail := by
  induction line with
  | nil => exact absurd rfl hne
  | cons c line ih =>
    rw [List.cons_append, splitInclusive, if_neg (hline c List.mem_cons_self)]
    cases line with
    | nil =>
      rw [List.nil_append]
      cases splitInclusive more <;> rfl
    | cons d line =>
      rw [ih (fun e he => hline e (List.mem_cons_of_mem _ he)) (List.cons_ne_nil _ _)]
      rfl

theorem splitInclusive_eq (text more : Text) :
    splitInclusive (text ++ more) = wholeLines text ++ splitInclusive (lastLine text ++ more) := by
  have hwhole : ∀ c ∈ (text.rdropWhile (· ≠ '\n')).getLast?, c = '\n' := by
    intro c hc
    obtain ⟨hne, rfl⟩ := List.mem_getLast?_eq_getLast hc
    simpa using List.rdropWhile_last_not (· ≠ '\n') text hne
  rw [wholeLines, lastLine, ← splitInclusive_append hwhole, ← List.append_assoc,
    List.rdropWhile_append_rtakeWhile]

/-! ## The filter -/

variable {markers : ShellCommandMarkers}

theorem terminalFrom_append (inside : Bool) (first second : List Text) :
    terminalFrom markers inside (first ++ second) = terminalFrom markers inside first ++
      (insideAfter markers inside first).elim [] (terminalFrom markers · second) := by
  induction first generalizing inside with
  | nil => rfl
  | cons line first ih =>
    rw [List.cons_append, terminalFrom, terminalFrom, insideAfter]
    split_ifs <;> simp [ih]

theorem terminalFrom_shown {line : Text} (h : lineShown markers line = true) (lines : List Text) :
    terminalFrom markers true (line :: lines) = line ++ terminalFrom markers true lines := by
  simp only [lineShown, Bool.not_eq_true', Bool.or_eq_false_iff] at h
  obtain ⟨⟨⟨hstart, hstop⟩, hinternal⟩, hecho⟩ := h
  simp [terminalFrom, hstart, hstop, hinternal, hecho]

/-- What the terminal shows of a text is the beginning of what it shows of a longer one, if the
last line stays. -/
theorem terminalShellCommandOutput_mono {text more : Text}
    (h : KeepsLastLine markers text more) :
    terminalShellCommandOutput text markers <+:
      terminalShellCommandOutput (text ++ more) markers := by
  have hself := splitInclusive_eq text []
  rw [List.append_nil, List.append_nil] at hself
  unfold terminalShellCommandOutput
  rw [hself, splitInclusive_eq text more, terminalFrom_append, terminalFrom_append,
    List.prefix_append_right_inj]
  cases hinside : insideAfter markers false (wholeLines text) with
  | none => exact List.prefix_refl _
  | some inside =>
    rw [Option.elim_some, Option.elim_some]
    by_cases hnone : lastLine text = []
    · rw [hnone]
      exact List.nil_prefix
    have hchars : ∀ c ∈ lastLine text, c ≠ '\n' := fun c hc => by
      simpa using List.mem_rtakeWhile_imp hc
    have halone : splitInclusive (lastLine text) = [lastLine text] := by
      have hline := splitInclusive_line hchars hnone []
      rwa [List.append_nil, splitInclusive, List.headD_nil, List.append_nil] at hline
    rw [halone, splitInclusive_line hchars hnone more]
    by_cases hshown : inside = true ∧ lineShown markers (lastLine text) = true
    · obtain ⟨rfl, hshown⟩ := hshown
      rw [terminalFrom_shown (h hnone hinside hshown), terminalFrom_shown hshown, terminalFrom,
        List.append_nil, List.append_assoc]
      exact List.prefix_append _ _
    · have hhidden : terminalFrom markers inside [lastLine text] = [] := by
        cases inside <;> simp_all [terminalFrom, lineShown]
      rw [hhidden]
      exact List.nil_prefix

/-! ## Bytes and chunks -/

theorem byteLen_append (a b : Text) : byteLen (a ++ b) = byteLen a + byteLen b := by
  simp [byteLen]

theorem eq_nil_of_byteLen {a : Text} (h : byteLen a = 0) : a = [] := by
  cases a with
  | nil => rfl
  | cons c a =>
    have hc := Char.utf8Size_pos c
    rw [byteLen, List.map_cons, List.sum_cons] at h
    omega

theorem dropBytes_append (a b : Text) : dropBytes (byteLen a) (a ++ b) = some b := by
  induction a with
  | nil => cases b <;> rfl
  | cons c a ih =>
    obtain ⟨n, hn⟩ := Nat.exists_eq_succ_of_ne_zero (Char.utf8Size_pos c).ne'
    have hlen : byteLen (c :: a) = n + byteLen a + 1 := by
      rw [byteLen, List.map_cons, List.sum_cons, hn, byteLen]
      omega
    rw [hlen, List.cons_append, dropBytes, if_pos (by omega), ← ih]
    congr 1
    omega

theorem flatten_chunksFrom (maxChars count : ℕ) (chunk text : Text) :
    (chunksFrom maxChars chunk count text).flatten = chunk ++ text := by
  induction text generalizing chunk count with
  | nil =>
    rw [chunksFrom]
    split <;> simp_all
  | cons c text ih =>
    rw [chunksFrom]
    split <;> simp [ih]

theorem flatten_blocks {size : ℕ} (hsize : 0 < size) (text : Text) :
    (blocks size text).flatten = text := by
  have hchunks := chunksFrom_eq_blocks hsize text [] (Nat.zero_le _)
  rw [List.nil_append] at hchunks
  rw [← hchunks, flatten_chunksFrom, List.nil_append]

/-! ## Growing views -/

theorem rawDelta_mono {command : ActiveShellCommand} {poll next : Poll}
    (h : poll.transcript <+: next.transcript) :
    poll.rawDelta command <+: next.rawDelta command := by
  have hdrop : ∀ (n : ℕ) (text more rest : Text), dropBytes n text = some rest →
      dropBytes n (text ++ more) = some (rest ++ more) := by
    intro n text more
    induction text generalizing n with
    | nil =>
      intro rest hrest
      cases n with
      | zero => cases hrest; cases more <;> rfl
      | succ n => cases hrest
    | cons c text ih =>
      intro rest hrest
      cases n with
      | zero => cases hrest; rfl
      | succ n =>
        rw [dropBytes] at hrest
        rw [List.cons_append, dropBytes]
        split_ifs at hrest ⊢
        exact ih _ rest hrest
  obtain ⟨more, hmore⟩ := h
  unfold Poll.rawDelta
  cases hpoll : dropBytes command.beforeLen poll.transcript with
  | none => exact List.nil_prefix
  | some rest =>
    rw [← hmore, hdrop _ _ more rest hpoll]
    exact List.prefix_append _ _

theorem view_mono {command : ActiveShellCommand} {poll next : Poll}
    (h : Continues command poll next) : poll.view command <+: next.view command := by
  obtain ⟨more, hmore⟩ : poll.rawDelta command <+: next.rawDelta command := rawDelta_mono h.grows
  unfold Poll.view
  rw [← hmore]
  exact terminalShellCommandOutput_mono (h.keeps more hmore.symm)

theorem cut_of_extends {size : ℕ} (hsize : 0 < size) {command : ActiveShellCommand} {poll : Poll}
    {shown : Text} (hposted : poll.droppedAfter = none) (h : shown <+: poll.view command) :
    ∃ texts, poll.cut size command (byteLen shown) = some (texts, byteLen (poll.view command)) ∧
      shown ++ texts.flatten = poll.view command := by
  obtain ⟨new, hnew⟩ := h
  unfold Poll.cut
  rw [← hnew, byteLen_append, hposted]
  split
  next hlen =>
    obtain rfl := eq_nil_of_byteLen (by omega : byteLen new = 0)
    exact ⟨[], by simp [byteLen], by simp⟩
  next =>
    rw [dropBytes_append]
    exact ⟨blocks size new, rfl, by rw [flatten_blocks hsize]⟩

/-- The induction over the polls: `shown` is the view that was posted before. -/
theorem pieces_of_chain {size : ℕ} (hsize : 0 < size) {command : ActiveShellCommand}
    (polls : List Poll) {shown : Text} (hfirst : ∀ poll ∈ polls.head?, shown <+: poll.view command)
    (hchain : polls.IsChain (Continues command))
    (hposted : ∀ poll ∈ polls, poll.droppedAfter = none) :
    ∃ streamed texts, pieces size command (byteLen shown) polls = (some streamed, texts) ∧
      shown ++ texts.flatten = (polls.getLast?.map (Poll.view command)).getD shown := by
  induction polls generalizing shown with
  | nil => exact ⟨_, [], rfl, by simp⟩
  | cons poll polls ih =>
    obtain ⟨texts, hcut, htexts⟩ :=
      cut_of_extends hsize (hposted poll List.mem_cons_self) (hfirst poll rfl)
    have hnext : ∀ next ∈ polls.head?, poll.view command <+: next.view command := fun next hmem =>
      view_mono (List.IsChain.rel_head? hchain hmem)
    obtain ⟨streamed, later, hpieces, hlater⟩ := ih hnext hchain.tail
      fun next hmem => hposted next (List.mem_cons_of_mem _ hmem)
    refine ⟨streamed, texts ++ later, by rw [pieces, hcut]; simp [hpieces], ?_⟩
    rw [List.flatten_append, ← List.append_assoc, htexts, hlater, List.getLast?_cons]
    cases polls.getLast? <;> rfl

/-- However the polls are spread over waits, the output is streamed without loss, if the last
line of every transcript stays in the next one and no wait is dropped while it posts. -/
theorem command_output_streamed (chunkChars : ℕ) (active : ActiveShellCommand)
    (hactive : active.lastStreamedTerminalLen = 0) (steps : List CommandStep)
    (hchain : (seen active steps).IsChain (Continues active))
    (hposted : ∀ poll ∈ seen active steps, poll.droppedAfter = none) :
    Streamed chunkChars active steps := by
  have hsize : 0 < max chunkChars 1 := by omega
  obtain ⟨streamed, texts, hpieces, htexts⟩ := @pieces_of_chain _ hsize _ (seen active steps) []
    (fun _ _ => List.nil_prefix) hchain hposted
  have hempty : byteLen [] = active.lastStreamedTerminalLen := hactive.symm
  obtain ⟨htext, hpanics⟩ := posted_pieces (redact_nil [] placeholder) chunkChars active steps
    active.lastStreamedTerminalLen
  rw [hempty] at hpieces
  rw [hpieces] at htext hpanics
  refine ⟨hpanics, ?_⟩
  rw [streamCommand, text_foldl_publish, ← htexts]
  exact htext.trans List.flatMap_id

def greetingBegun : Text := "__TALOS_CMD_START_0_0_a__\nhel".toList

def greetingRest : Text := "lo\n__TALOS_CMD_END_0_0_a__:0\n".toList

/-- The output comes in two parts of one line, the second in a wait of two polls. -/
def greetingSteps : List CommandStep :=
  [.wait 60 [.of greetingBegun],
    .wait 60 [.of greetingBegun, .of (greetingBegun ++ greetingRest)], .finish]

theorem command_output_streamed_greeting :
    Streamed 2 listing greetingSteps ∧
      (streamCommand [] 2 listing greetingSteps).text = "hello\n".toList := by
  have hseen : seen listing greetingSteps =
      [.of greetingBegun, .of greetingBegun, .of (greetingBegun ++ greetingRest)] := by rfl
  have hcontinues : ∀ rest ∈ [[], greetingRest],
      Continues listing (.of greetingBegun) (.of (greetingBegun ++ rest)) := by
    intro rest hrest
    refine ⟨List.prefix_append _ _, fun more hmore _ _ _ => ?_⟩
    have hdrop : ∀ text, (Poll.of text).rawDelta listing = text := fun text => by cases text <;> rfl
    rw [hdrop, hdrop] at hmore
    obtain rfl := List.append_cancel_left hmore
    clear hmore hdrop
    revert rest
    decide +kernel
  have hstreamed := command_output_streamed 2 listing rfl greetingSteps
    (by
      rw [hseen]
      exact .cons_cons (hcontinues [] (by simp)) (.cons_cons (hcontinues _ (by simp))
        (.singleton _)))
    (by simp [hseen, Poll.of])
  refine ⟨hstreamed, hstreamed.2.trans ?_⟩
  decide +kernel

/-! ## A line that disappears -/

def exitLineBegun : Text := "__TALOS_CMD_START_0_0_a__\n__t".toList

def exitLineDone : Text := exitLineBegun ++ "alos_exit=0\nok\n".toList

/-- The view ends with a line of the wrapper that is not complete and so not recognised. -/
theorem partial_line_stays_streamed : exitLineBegun <+: exitLineDone ∧
      (streamCommand [] 4000 listing [.wait 60 [.of exitLineBegun, .of exitLineDone]]).text =
        "__t".toList ∧
      ¬ Streamed 4000 listing [.wait 60 [.of exitLineBegun, .of exitLineDone]] := by
  unfold Streamed
  decide +kernel

end Talos.Runner
