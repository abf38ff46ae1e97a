import Talos.Runner.ShellOutput

/-!
# The echo of a command

The runner types a command between two markers into the shell and takes the end marker with
a colon for the completion. The terminal echoes what is typed. On a Windows host the typed
text has the colon right behind the end marker; elsewhere it has not, and then only control
sequences can make a marker appear or disappear.
-/

namespace Talos.Runner

open Rust

/-! ## Building a command -/

def platformIsWindows (platform : Option Text) : Bool :=
  contains ((platform.getD []).map Char.toLower) "windows".toList

def safeMarkerComponent (value : Text) : Text :=
  let out := value.map fun c => if c.isAlphanum then c else '_'
  if out = [] then "command".toList else out

def shellCommandMarkers (approvalId : Text) (turnIndex nowUnixMs : ℕ) : ShellCommandMarkers :=
  let id := Nat.toDigits 10 turnIndex ++ '_' :: Nat.toDigits 10 nowUnixMs ++
    '_' :: safeMarkerComponent approvalId
  ⟨"__TALOS_CMD_START_".toList ++ id ++ "__".toList, "__TALOS_CMD_END_".toList ++ id ++ "__".toList⟩

/-- `command.trim_end()`. -/
def trimEnd (command : Text) : Text := (command.reverse.dropWhile isWhitespace).reverse

/-- The lines after a command on a Windows host, up to the end marker. -/
def windowsExit : Text :=
  ("\r\nif (-not $?) \x7b $__talosExit = if ($global:LASTEXITCODE -ne $null) " ++
    "\x7b [int]$global:LASTEXITCODE \x7d else \x7b 1 \x7d \x7d elseif " ++
    "($global:LASTEXITCODE -ne $null) \x7b $__talosExit = [int]$global:LASTEXITCODE \x7d " ++
    "else \x7b $__talosExit = 0 \x7d\r\n\x7d catch \x7b\r\nWrite-Error $_\r\n" ++
    "$__talosExit = 1\r\n\x7d\r\nWrite-Output \"").toList

/-- The lines before and after a command elsewhere; what follows the exit status starts with
the colon of the format. -/
def unixHead (start : Text) : Text := "printf '\\n%s\\n' '".toList ++ start ++ "'\n".toList

def unixExit : Text := "\n__talos_exit=$?\nprintf '\\n%s".toList

def unixTail (stop : Text) : Text :=
  "%s\\n' '".toList ++ stop ++ "' \"$__talos_exit\"\n".toList

def buildMarkedShellCommand (command : Text) (markers : ShellCommandMarkers)
    (platform : Option Text) : Text :=
  if platformIsWindows platform then
    "$__talosExit = 0\r\n$global:LASTEXITCODE = $null\r\nWrite-Output \"".toList ++
      markers.start ++ "\"\r\ntry \x7b\r\n".toList ++ trimEnd command ++ windowsExit ++
      (markers.stop ++ ":$__talosExit\"\r\n".toList)
  else
    unixHead markers.start ++ trimEnd command ++ (unixExit ++ ':' :: unixTail markers.stop)

/-! ## Control sequences -/

def stateAfter : ControlState → Text → ControlState
  | state, [] => state
  | .sequence, c :: rest =>
    if '@' ≤ c ∧ c ≤ '~' then stateAfter .text rest else stateAfter .sequence rest
  | .escape, '[' :: rest => stateAfter .sequence rest
  | _, c :: rest => if c = '\x1b' then stateAfter .escape rest else stateAfter .text rest

theorem stripFrom_escape {c : Char} (hc : c ≠ '[') (rest : Text) :
    stripFrom .escape (c :: rest) = stripFrom .text (c :: rest) ∧
      stateAfter .escape (c :: rest) = stateAfter .text (c :: rest) := by
  constructor
  · simp [stripFrom, hc]
  · simp [stateAfter, hc]

theorem stripFrom_append (state : ControlState) (a b : Text) :
    stripFrom state (a ++ b) = stripFrom state a ++ stripFrom (stateAfter state a) b ∧
      stateAfter state (a ++ b) = stateAfter (stateAfter state a) b := by
  induction a generalizing state with
  | nil => cases state <;> exact ⟨rfl, rfl⟩
  | cons c a ih =>
    rw [List.cons_append]
    have htext : stripFrom .text (c :: (a ++ b)) =
          stripFrom .text (c :: a) ++ stripFrom (stateAfter .text (c :: a)) b ∧
        stateAfter .text (c :: (a ++ b)) = stateAfter (stateAfter .text (c :: a)) b := by
      simp only [stripFrom, stateAfter]
      split_ifs <;> simp [ih]
    cases state with
    | text => exact htext
    | sequence =>
      simp only [stripFrom, stateAfter]
      split_ifs <;> exact ih _
    | escape =>
      by_cases hc : c = '['
      · rw [hc]
        exact ih .sequence
      · simp only [stripFrom_escape hc]
        exact htext

def IsPlain (text : Text) : Prop := ∀ c ∈ text, c ≠ '\x1b' ∧ c ≠ '\r' ∧ c ≠ '\x07'

theorem strip_plain {text : Text} (h : IsPlain text) :
    stripFrom .text text = text ∧ stateAfter .text text = .text := by
  induction text with
  | nil => exact ⟨rfl, rfl⟩
  | cons c text ih =>
    obtain ⟨⟨hescape, hreturn, hbell⟩, htail⟩ := List.forall_mem_cons.mp h
    obtain ⟨hstrip, hstate⟩ := ih htail
    simp [stripFrom, stateAfter, hescape, hreturn, hbell, hstrip, hstate]

/-! ## Markers -/

def isMarkerChar (c : Char) : Bool := c.isAlphanum || c = '_'

/-- What the end marker of a command looks like. -/
structure IsMarker (stop : Text) : Prop where
  chars : ∀ c ∈ stop, isMarkerChar c = true
  start : ∃ rest, stop = '_' :: '_' :: rest
  last : stop.getLast? = some '_'

theorem isMarker_stop (approvalId : Text) (turnIndex nowUnixMs : ℕ) :
    IsMarker (shellCommandMarkers approvalId turnIndex nowUnixMs).stop ∧
      ∀ c ∈ (shellCommandMarkers approvalId turnIndex nowUnixMs).start, isMarkerChar c = true := by
  have hdigits : ∀ n, ∀ c ∈ Nat.toDigits 10 n, isMarkerChar c = true := by
    intro n c hc
    have hdigit := Nat.isDigit_of_mem_toDigits (by decide) (by decide) hc
    simp [isMarkerChar, Char.isAlphanum, hdigit]
  have hcomponent : ∀ c ∈ safeMarkerComponent approvalId, isMarkerChar c = true := by
    intro c hc
    unfold safeMarkerComponent at hc
    dsimp only at hc
    split at hc
    · exact List.all_eq_true.mp (by decide) c hc
    · obtain ⟨d, -, rfl⟩ := List.mem_map.mp hc
      split <;> simp_all [isMarkerChar]
  have hplain : ∀ text : String, text ∈ ["__TALOS_CMD_START_", "__TALOS_CMD_END_", "__"] →
      ∀ c ∈ text.toList, isMarkerChar c = true := by
    simp only [← List.all_eq_true]
    decide
  have hunderscore : isMarkerChar '_' = true := by decide
  have hid : ∀ c ∈ Nat.toDigits 10 turnIndex ++ '_' :: Nat.toDigits 10 nowUnixMs ++
      '_' :: safeMarkerComponent approvalId, isMarkerChar c = true := by
    simp only [List.forall_mem_append, List.forall_mem_cons]
    exact ⟨⟨hdigits _, hunderscore, hdigits _⟩, hunderscore, hcomponent⟩
  refine ⟨⟨?_, ⟨_, rfl⟩, ?_⟩, ?_⟩
  · exact List.forall_mem_append.mpr ⟨List.forall_mem_append.mpr ⟨hplain _ (by decide), hid⟩,
      hplain _ (by decide)⟩
  · exact (congrArg List.getLast? (List.append_assoc _ ['_'] ['_']).symm).trans List.getLast?_concat
  · exact List.forall_mem_append.mpr ⟨List.forall_mem_append.mpr ⟨hplain _ (by decide), hid⟩,
      hplain _ (by decide)⟩

theorem IsMarker.not_mem {stop : Text} (h : IsMarker stop) {c : Char}
    (hc : isMarkerChar c = false) : c ∉ stop := fun hmem => by
  rw [h.chars c hmem] at hc
  cases hc

theorem IsMarker.cons_tail {stop : Text} (h : IsMarker stop) : '_' :: stop.tail = stop := by
  obtain ⟨rest, rfl⟩ := h.start
  rfl

theorem exists_of_colon {a b x y : Text} (h : a ++ ':' :: b = x ++ y) (hy : ':' ∉ y) :
    ∃ c, x = a ++ ':' :: c := by
  rcases List.append_eq_append_iff.mp h with ⟨part, rfl, hpart⟩ | ⟨part, -, rfl⟩
  · cases part with
    | nil =>
      obtain rfl : ':' :: b = y := hpart
      exact absurd List.mem_cons_self hy
    | cons d part =>
      obtain ⟨rfl, -⟩ := List.cons_eq_cons.mp hpart
      exact ⟨part, rfl⟩
  · exact absurd (by simp) hy

/-- A colon before two texts without one, with a colon between them. -/
theorem colon_cases {a b text u v : Text} (h : a ++ ':' :: b = text ++ (u ++ ':' :: v))
    (hu : ':' ∉ u) (hv : ':' ∉ v) : a = text ++ u ∨ ∃ c, text = a ++ ':' :: c := by
  have hsplit : a ++ ':' :: b = text ++ u ++ [':'] ++ v := by
    rw [h]
    simp
  obtain ⟨c, hc⟩ := exists_of_colon hsplit hv
  rcases List.eq_nil_or_concat' c with rfl | ⟨c, d, rfl⟩
  · exact .inl (List.append_cancel_right hc).symm
  · have hcut := (List.append_inj' (hc.trans (List.append_assoc a (':' :: c) [d]).symm) rfl).1
    exact .inr (exists_of_colon hcut.symm hu)

/-- A marker does not go across a line feed. -/
theorem eq_nil_of_barrier {stop head first second : Text} (hstop : IsMarker stop)
    (hhead : head.getLast? = some '\n') (hparts : stop ++ [':'] = first ++ second)
    (hfirst : first <:+ head) : first = [] := by
  obtain ⟨before, rfl⟩ := hfirst
  rcases List.eq_nil_or_concat' first with rfl | ⟨first, c, rfl⟩
  · rfl
  · rw [← List.append_assoc, List.getLast?_concat] at hhead
    obtain rfl := Option.some_inj.mp hhead
    have hmem : '\n' ∈ stop ++ [':'] := by
      rw [hparts]
      simp
    simp [hstop.not_mem (by decide : isMarkerChar '\n' = false)] at hmem

/-- A marker is found by its colon, and only an underscore stands before that. -/
theorem marker_infix_iff {stop head text u v : Text} (hstop : IsMarker stop)
    (hhead : head.getLast? = some '\n') (hcolon : ':' ∉ head) (hu : ':' ∉ u)
    (hlast : u.getLast? = some 's') (hv : ':' ∉ v) :
    stop ++ [':'] <:+: head ++ text ++ (u ++ ':' :: v) ↔ stop ++ [':'] <:+: text := by
  refine ⟨?_, fun h => ?_⟩
  · rintro ⟨a, b, hab⟩
    have hin : stop ++ [':'] <:+: head ++ text := by
      rw [List.append_assoc, List.append_assoc, ← List.append_assoc] at hab
      rcases colon_cases hab hu hv with heq | ⟨c, hc⟩
      · have hends := congrArg List.getLast? heq
        simp [List.getLast?_append, hlast, hstop.last] at hends
      · exact ⟨a, c, by simpa using hc.symm⟩
    rcases List.infix_append_iff.mp hin with hin | hin | ⟨first, second, hparts, hfirst, hsecond⟩
    · exact absurd (hin.subset (by simp)) hcolon
    · exact hin
    · obtain rfl := eq_nil_of_barrier hstop hhead hparts hfirst
      rw [hparts]
      exact hsecond.isInfix
  · obtain ⟨a, b, rfl⟩ := h
    exact ⟨head ++ a, b ++ (u ++ ':' :: v), by simp⟩

/-! ## Reading the exit code -/

section AfterLast

variable {part : Text}

theorem afterLast_eq_none (hpart : part ≠ []) {text : Text} (h : ¬ part <:+: text) :
    afterLast part text = none := by
  induction text with
  | nil => rw [afterLast, if_neg hpart]
  | cons c text ih =>
    rw [afterLast, ih fun hin => h (List.infix_cons hin)]
    exact if_neg fun hpre => h hpre.isInfix

theorem afterLast_cons {c : Char} {text rest : Text} (hnone : afterLast part text = none)
    (h : c :: text = part ++ rest) : afterLast part (c :: text) = some rest := by
  rw [afterLast, hnone]
  rw [h, List.drop_left]
  exact if_pos (List.prefix_append _ _)

theorem afterLast_of_some {text after : Text} (h : afterLast part text = some after)
    (before : Text) : afterLast part (before ++ text) = some after := by
  induction before with
  | nil => exact h
  | cons c before ih => rw [List.cons_append, afterLast, ih]

theorem afterLast_append (hpart : part ≠ []) {before text : Text} (htext : ¬ part <:+: text)
    (h : ∀ s, s <:+ before → part <+: s ++ text → part <+: s) :
    afterLast part (before ++ text) = (afterLast part before).map (· ++ text) := by
  induction before with
  | nil => rw [List.nil_append, afterLast_eq_none hpart htext, afterLast, if_neg hpart]; rfl
  | cons c before ih =>
    have hiff : part <+: c :: (before ++ text) ↔ part <+: c :: before :=
      ⟨h _ List.suffix_rfl, fun hpre => hpre.trans (List.prefix_append (c :: before) text)⟩
    have hbefore := ih fun s hs => h s (hs.trans (List.suffix_cons c before))
    rw [List.cons_append, afterLast, afterLast, hbefore]
    cases afterLast part before with
    | some after => rfl
    | none =>
      dsimp only [Option.map_none]
      by_cases hpre : part <+: c :: before
      · rw [if_pos (hiff.mpr hpre), if_pos hpre, Option.map_some, ← List.cons_append,
          List.drop_append_of_le_length hpre.length_le]
      · rw [if_neg (mt hiff.mp hpre), if_neg hpre]
        rfl

theorem afterLast_skip {before text : Text}
    (h : ∀ s, s <:+ before → s ≠ [] → ¬ part <+: s ++ text) :
    afterLast part (before ++ text) = afterLast part text := by
  induction before with
  | nil => rfl
  | cons c before ih =>
    rw [List.cons_append, afterLast, ih fun s hs => h s (hs.trans (List.suffix_cons c _))]
    cases afterLast part text with
    | some after => rfl
    | none => exact if_neg (h (c :: before) List.suffix_rfl (List.cons_ne_nil _ _))

theorem exitCode_eq_none {raw : Text} {markers : ShellCommandMarkers}
    (h : ¬ markers.stop ++ [':'] <:+: stripShellControlSequences raw) :
    shellCommandExitCode raw markers = none := by
  rw [shellCommandExitCode, afterLast_eq_none (by simp) h]
  rfl

end AfterLast

/-! ## The echo -/

section Echo

variable {markers : ShellCommandMarkers} {platform : Option Text}

theorem isPlain_of_chars {text : Text} {p : Char → Bool} (h : ∀ c ∈ text, p c = true)
    (hp : ['\x1b', '\r', '\x07'].any p = false) : IsPlain text := by
  have hne : ∀ c ∈ text, ∀ d ∈ ['\x1b', '\r', '\x07'], c ≠ d := by
    rintro c hc d hd rfl
    exact List.any_eq_false.mp hp c hd (h c hc)
  exact fun c hc => ⟨hne c hc _ (by decide), hne c hc _ (by decide), hne c hc _ (by decide)⟩

theorem isPlain_of_all {text : Text}
    (h : (text.all fun c => not (['\x1b', '\r', '\x07'].contains c)) = true) : IsPlain text :=
  isPlain_of_chars (List.all_eq_true.mp h) (by decide)

theorem getLast?_unixTail (stop : Text) : (unixTail stop).getLast? = some '\n' :=
  List.getLast?_append_of_ne_nil _ (by decide)

deriving instance DecidableEq for ControlState

theorem exit_barrier (state : ControlState) : ':' ∉ stripFrom state unixExit ∧
    (stripFrom state unixExit).getLast? = some 's' ∧ stateAfter state unixExit = .text := by
  cases state <;> decide

variable (command : Text) (hstop : IsMarker markers.stop)
  (hstart : ∀ c ∈ markers.start, isMarkerChar c = true)

include hstop in
theorem strip_marker (post : Text) : stripFrom .text (markers.stop ++ ':' :: post) =
    markers.stop ++ ':' :: stripFrom .text post := by
  obtain ⟨hstrip, hstate⟩ := strip_plain (isPlain_of_chars hstop.chars (by decide))
  rw [(stripFrom_append _ _ _).1, hstrip, hstate]
  rfl

include hstop in
theorem windows_echo (hplatform : platformIsWindows platform = true) :
    shellCommandHasEndMarker (buildMarkedShellCommand command markers platform) markers = true := by
  have hexit : ∀ state, stateAfter state windowsExit = .text := by
    intro state
    delta windowsExit
    simp only [String.toList_append]
    cases state <;> decide +kernel
  unfold shellCommandHasEndMarker contains stripShellControlSequences buildMarkedShellCommand
  rw [if_pos hplatform, (stripFrom_append ..).1, (stripFrom_append ..).2, hexit,
    show ":$__talosExit\"\r\n".toList = ':' :: "$__talosExit\"\r\n".toList from rfl,
    strip_marker hstop]
  have hin : ∀ a b : Text, markers.stop ++ [':'] <:+: a ++ (markers.stop ++ ':' :: b) :=
    fun a b => ⟨a, b, by simp⟩
  exact decide_eq_true (hin _ _)

include hstop hstart in
theorem strip_unix (hplatform : platformIsWindows platform = false) :
    stripShellControlSequences (buildMarkedShellCommand command markers platform) =
        unixHead markers.start ++ stripShellControlSequences (trimEnd command) ++
          (stripFrom (stateAfter .text (trimEnd command)) unixExit ++
            ':' :: unixTail markers.stop) ∧
      stateAfter .text (buildMarkedShellCommand command markers platform) = .text := by
  have hhead : IsPlain (unixHead markers.start) := by
    refine List.forall_mem_append.mpr ⟨List.forall_mem_append.mpr
      ⟨?_, isPlain_of_chars hstart (by decide)⟩, ?_⟩ <;> exact isPlain_of_all (by decide)
  have htail : IsPlain (':' :: unixTail markers.stop) := by
    refine List.forall_mem_cons.mpr ⟨by decide, List.forall_mem_append.mpr
      ⟨List.forall_mem_append.mpr ⟨?_, isPlain_of_chars hstop.chars (by decide)⟩, ?_⟩⟩ <;>
      exact isPlain_of_all (by decide)
  unfold stripShellControlSequences buildMarkedShellCommand
  rw [if_neg (by simp [hplatform])]
  simp only [stripFrom_append, strip_plain hhead, exit_barrier, strip_plain htail, and_self]

include hstop hstart in
theorem marker_infix_unix_iff (hplatform : platformIsWindows platform = false) :
    markers.stop ++ [':'] <:+:
        stripShellControlSequences (buildMarkedShellCommand command markers platform) ↔
      markers.stop ++ [':'] <:+: stripShellControlSequences (trimEnd command) := by
  have hnot : ∀ text : Text, (∀ c ∈ text, isMarkerChar c = true) → ':' ∉ text :=
    fun text h hmem => absurd (h _ hmem) (by decide)
  rw [(strip_unix command hstop hstart hplatform).1]
  refine marker_infix_iff hstop ?_ ?_ (exit_barrier _).1 (exit_barrier _).2.1 ?_
  · exact List.getLast?_append_of_ne_nil _ (by decide)
  · exact List.not_mem_append (List.not_mem_append (by decide) (hnot _ hstart)) (by decide)
  · exact List.not_mem_append (List.not_mem_append (by decide) (hnot _ hstop.chars)) (by decide)

include hstop hstart in
/-- No part of the echo is taken for the completion. -/
theorem echo_clean_iff (hplatform : platformIsWindows platform = false) :
    (∀ part, part <+: buildMarkedShellCommand command markers platform →
      shellCommandHasEndMarker part markers = false ∧ shellCommandExitCode part markers = none) ↔
    ¬ markers.stop ++ [':'] <:+: stripShellControlSequences (trimEnd command) := by
  rw [← marker_infix_unix_iff command hstop hstart hplatform]
  refine ⟨fun h => of_decide_eq_false (h _ List.prefix_rfl).1, fun h part hpart => ?_⟩
  have hnone : ¬ markers.stop ++ [':'] <:+: stripShellControlSequences part := by
    obtain ⟨rest, hrest⟩ := hpart
    rw [← hrest, stripShellControlSequences, (stripFrom_append ..).1] at h
    exact fun hin => h (hin.trans (List.prefix_append _ _).isInfix)
  exact ⟨decide_eq_false hnone, exitCode_eq_none hnone⟩

end Echo

/-! ## The completion -/

/-- Whether a character belongs to the exit code. -/
def isCodeChar (c : Char) : Bool := c.isDigit || c = '-'

section Completion

variable {markers : ShellCommandMarkers} (hstop : IsMarker markers.stop) {digits : Text}
  (hdigits : ∀ c ∈ digits, isCodeChar c = true)

include hstop hdigits

theorem colon_free : ':' ∉ markers.stop.tail ∧ ':' ∉ digits ++ ['\n'] := by
  refine ⟨fun hmem => ?_, fun hmem => ?_⟩
  · exact hstop.not_mem (by decide) (List.mem_of_mem_tail hmem)
  · rcases List.mem_append.mp hmem with hmem | hmem
    · exact absurd (hdigits _ hmem) (by decide)
    · exact absurd hmem (by decide)

/-- Behind its first character the completion has no marker of its own. -/
theorem not_infix_broken :
    ¬ markers.stop ++ [':'] <:+: markers.stop.tail ++ ':' :: (digits ++ ['\n']) := by
  rintro ⟨a, b, hab⟩
  rw [List.append_assoc, List.append_assoc, ← List.append_assoc] at hab
  obtain ⟨htail, hrest⟩ := colon_free hstop hdigits
  rw [← List.nil_append (markers.stop.tail ++ _)] at hab
  rcases colon_cases hab htail hrest with heq | ⟨c, hc⟩
  · have hlength := congrArg List.length heq
    have hcons := congrArg List.length hstop.cons_tail
    simp only [List.length_cons, List.length_append, List.length_nil] at hlength hcons
    omega
  · simp at hc

theorem afterLast_completion (before : Text) :
    afterLast (markers.stop ++ [':']) (before ++ (markers.stop ++ ':' :: (digits ++ ['\n']))) =
      some (digits ++ ['\n']) := by
  refine afterLast_of_some ?_ before
  have hbroken := afterLast_eq_none (by simp) (not_infix_broken hstop hdigits)
  have hcons : '_' :: (markers.stop.tail ++ ':' :: (digits ++ ['\n'])) =
      markers.stop ++ ':' :: (digits ++ ['\n']) := by
    rw [← List.cons_append, hstop.cons_tail]
  rw [← hcons]
  exact afterLast_cons hbroken (by rw [hcons, List.append_assoc]; rfl)

theorem afterLast_broken {before : Text} (hbefore : before.getLast? ≠ some '_') :
    afterLast (markers.stop ++ [':']) (before ++ (markers.stop.tail ++ ':' :: (digits ++ ['\n']))) =
      (afterLast (markers.stop ++ [':']) before).map
        (· ++ (markers.stop.tail ++ ':' :: (digits ++ ['\n']))) := by
  refine afterLast_append (by simp) (not_infix_broken hstop hdigits) ?_
  rintro s ⟨first, rfl⟩ ⟨b, hb⟩
  obtain ⟨htail, hrest⟩ := colon_free hstop hdigits
  rw [List.append_assoc] at hb
  rcases colon_cases hb htail hrest with heq | ⟨c, rfl⟩
  · rw [← hstop.cons_tail] at heq
    obtain rfl : ['_'] = s := List.append_cancel_right (heq : ['_'] ++ _ = s ++ _)
    exact absurd List.getLast?_concat hbefore
  · exact ⟨c, by simp⟩

omit hstop in
theorem code_digits (hne : digits ≠ []) :
    ((digits ++ ['\n']).dropWhile isWhitespace).takeWhile isCodeChar = digits := by
  obtain ⟨c, rest, rfl⟩ := List.exists_cons_of_ne_nil hne
  have hspace : isWhitespace c = false := by
    have hbound : 45 ≤ c.toNat ∧ c.toNat ≤ 57 := by
      rcases Bool.or_eq_true_iff.mp (hdigits c List.mem_cons_self) with hc | hc
      · obtain ⟨hlow, hhigh⟩ := Bool.and_eq_true_iff.mp hc
        exact ⟨Nat.le_trans (by decide) (UInt32.le_iff_toNat_le.mp (of_decide_eq_true hlow)),
          UInt32.le_iff_toNat_le.mp (of_decide_eq_true hhigh)⟩
      · rw [of_decide_eq_true hc]
        decide
    simp [isWhitespace]
    omega
  rw [List.cons_append, List.dropWhile_cons_of_neg (by simp [hspace]), ← List.cons_append,
    List.takeWhile_append_of_pos hdigits]
  exact List.append_nil _

omit hstop hdigits in
theorem code_broken (after rest : Text) :
    ((after ++ '_' :: rest).dropWhile isWhitespace).takeWhile isCodeChar =
      (after.dropWhile isWhitespace).takeWhile isCodeChar := by
  have htake : ∀ text : Text, (text ++ '_' :: rest).takeWhile isCodeChar =
      text.takeWhile isCodeChar := by
    intro text
    induction text with
    | nil => rfl
    | cons c text ih => rw [List.cons_append, List.takeWhile_cons, List.takeWhile_cons, ih]
  induction after with
  | nil => rfl
  | cons c after ih =>
    rw [List.cons_append, List.dropWhile_cons, List.dropWhile_cons]
    split
    · exact ih
    · exact htake (c :: after)

end Completion

/-- On a host that is not Windows, the completion is read after the echo and the output unless
the output ends inside a control sequence, which takes a character of the marker. -/
theorem completion_read_iff {markers : ShellCommandMarkers} (hstop : IsMarker markers.stop)
    (hstart : ∀ c ∈ markers.start, isMarkerChar c = true) {command : Text}
    {platform : Option Text} (hplatform : platformIsWindows platform = false)
    (hecho : ¬ markers.stop ++ [':'] <:+: stripShellControlSequences (trimEnd command))
    (output : Text) {digits : Text} (hdigits : ∀ c ∈ digits, isCodeChar c = true) {code : ℤ}
    (hcode : i32FromStr digits = some code) :
    shellCommandExitCode (buildMarkedShellCommand command markers platform ++ output ++
        (markers.stop ++ ':' :: (digits ++ ['\n']))) markers = some code ↔
      stateAfter .text output ≠ .sequence ∨
        (stripShellControlSequences output).getLast? = some '_' ∨
        shellCommandExitCode output markers = some code := by
  have hne : digits ≠ [] := by
    rintro rfl
    cases hcode
  have hread : ∀ raw : Text, shellCommandExitCode raw markers =
      (afterLast (markers.stop ++ [':']) (stripShellControlSequences raw)).bind fun after =>
        i32FromStr ((after.dropWhile isWhitespace).takeWhile isCodeChar) := fun _ => rfl
  have hfound : ∀ before : Text, ((afterLast (markers.stop ++ [':'])
      (before ++ (markers.stop ++ ':' :: (digits ++ ['\n'])))).bind fun after =>
        i32FromStr ((after.dropWhile isWhitespace).takeWhile isCodeChar)) = some code := by
    intro before
    rw [afterLast_completion hstop hdigits, Option.bind_some, code_digits hdigits hne, hcode]
  obtain ⟨hstrip, hstate⟩ := strip_unix command hstop hstart hplatform
  have hmarker := marker_infix_unix_iff command hstop hstart hplatform
  set echo := buildMarkedShellCommand command markers platform
  have hplain : IsPlain (markers.stop.tail ++ ':' :: (digits ++ ['\n'])) := by
    refine List.forall_mem_append.mpr ⟨isPlain_of_chars (p := isMarkerChar)
      (fun c hc => hstop.chars c (List.mem_of_mem_tail hc)) (by decide), List.forall_mem_cons.mpr
      ⟨by decide, List.forall_mem_append.mpr ⟨isPlain_of_chars hdigits (by decide),
        List.forall_mem_singleton.mpr (by decide)⟩⟩⟩
  have hcons : '_' :: (markers.stop.tail ++ ':' :: (digits ++ ['\n'])) =
      markers.stop ++ ':' :: (digits ++ ['\n']) := by
    rw [← List.cons_append, hstop.cons_tail]
  have hwhole : stripShellControlSequences
      (echo ++ output ++ (markers.stop ++ ':' :: (digits ++ ['\n']))) =
        stripShellControlSequences echo ++ stripShellControlSequences output ++
          stripFrom (stateAfter .text output) (markers.stop ++ ':' :: (digits ++ ['\n'])) := by
    simp only [stripShellControlSequences, stripFrom_append, hstate]
  rw [hread, hwhole]
  have hfull : stripFrom .text (markers.stop ++ ':' :: (digits ++ ['\n'])) =
      markers.stop ++ ':' :: (digits ++ ['\n']) := by
    rw [← hcons]
    exact (strip_plain (List.forall_mem_cons.mpr ⟨by decide, hplain⟩)).1
  cases hopen : stateAfter .text output with
  | text =>
    rw [hfull]
    exact iff_of_true (hfound _) (.inl nofun)
  | escape =>
    rw [← hcons, (stripFrom_escape (by decide) _).1, hcons, hfull]
    exact iff_of_true (hfound _) (.inl nofun)
  | sequence =>
    have hbroken : stripFrom .sequence (markers.stop ++ ':' :: (digits ++ ['\n'])) =
        markers.stop.tail ++ ':' :: (digits ++ ['\n']) := by
      rw [← hcons]
      exact (strip_plain hplain).1
    rw [hbroken]
    by_cases hlast : (stripShellControlSequences output).getLast? = some '_'
    · obtain ⟨shown, hshown⟩ := List.getLast?_eq_some_iff.mp hlast
      have hjoin : stripShellControlSequences echo ++ stripShellControlSequences output ++
          (markers.stop.tail ++ ':' :: (digits ++ ['\n'])) =
            stripShellControlSequences echo ++ shown ++
              (markers.stop ++ ':' :: (digits ++ ['\n'])) := by
        rw [hshown, ← hcons]
        simp
      rw [hjoin]
      exact iff_of_true (hfound _) (.inr (.inl hlast))
    · have hend : (stripShellControlSequences echo).getLast? = some '\n' := by
        rw [hstrip, List.getLast?_append_of_ne_nil _ (by simp),
          List.getLast?_append_of_ne_nil _ (List.cons_ne_nil _ _), List.getLast?_cons,
          getLast?_unixTail]
        rfl
      have hskip : afterLast (markers.stop ++ [':'])
          (stripShellControlSequences echo ++ stripShellControlSequences output) =
            afterLast (markers.stop ++ [':']) (stripShellControlSequences output) := by
        refine afterLast_skip fun s hs hne hpre => ?_
        obtain ⟨b, hb⟩ := hpre
        rcases List.append_eq_append_iff.mp hb with ⟨more, rfl, -⟩ | ⟨more, hparts, -⟩
        · exact hecho (hmarker.mp (((List.prefix_append _ _).isInfix).trans hs.isInfix))
        · exact hne (eq_nil_of_barrier hstop hend hparts hs)
      rw [afterLast_broken hstop hdigits (by
        rw [List.getLast?_append, hend]
        cases hout : (stripShellControlSequences output).getLast? with
        | none => decide
        | some c => exact fun h => hlast (hout.trans h)), hskip, hread]
      obtain ⟨rest, hrest⟩ := hstop.start
      simp only [hlast, ne_eq, not_true_eq_false, false_or]
      rw [hrest, List.tail_cons, Option.bind_map]
      simp only [Function.comp_def, List.cons_append, code_broken]

/-- The echo of a command is no completion and the completion is read, exactly when the host is
not Windows, the command shows no marker once its control sequences are taken out, and the output
does not end inside a control sequence, unless an underscore or another completion stands there. -/
theorem echo_is_not_completion_iff (approvalId : Text) (turnIndex nowUnixMs : ℕ) (command : Text)
    (platform : Option Text) (output digits : Text) (code : ℤ)
    (hdigits : ∀ c ∈ digits, isCodeChar c = true) (hcode : i32FromStr digits = some code) :
    let markers := shellCommandMarkers approvalId turnIndex nowUnixMs
    let echo := buildMarkedShellCommand command markers platform
    let done := echo ++ output ++ (markers.stop ++ ':' :: (digits ++ ['\n']))
    ((∀ part, part <+: echo →
        shellCommandHasEndMarker part markers = false ∧ shellCommandExitCode part markers = none) ∧
      shellCommandHasEndMarker done markers = true ∧
      shellCommandExitCode done markers = some code) ↔
    platformIsWindows platform = false ∧
      ¬ markers.stop ++ [':'] <:+: stripShellControlSequences (trimEnd command) ∧
      (stateAfter .text output ≠ .sequence ∨
        (stripShellControlSequences output).getLast? = some '_' ∨
        shellCommandExitCode output markers = some code) := by
  intro markers echo done
  obtain ⟨hstop, hstart⟩ := isMarker_stop approvalId turnIndex nowUnixMs
  cases hplatform : platformIsWindows platform with
  | true =>
    refine ⟨fun h => ?_, fun h => nomatch h.1⟩
    have hfound := windows_echo command hstop hplatform
    rw [(h.1 _ List.prefix_rfl).1] at hfound
    cases hfound
  | false =>
    have hecho := echo_clean_iff command hstop hstart hplatform
    refine ⟨fun h => ⟨rfl, hecho.mp h.1, ?_⟩, fun h => ⟨hecho.mpr h.2.1, ?_⟩⟩
    · exact (completion_read_iff hstop hstart hplatform (hecho.mp h.1) output hdigits hcode).mp
        h.2.2
    · have hread := (completion_read_iff hstop hstart hplatform h.2.1 output hdigits hcode).mpr
        h.2.2
      refine ⟨?_, hread⟩
      by_contra hnone
      rw [exitCode_eq_none fun hin => hnone (decide_eq_true hin)] at hread
      cases hread

def plainMarkers : ShellCommandMarkers := shellCommandMarkers "a".toList 0 0

theorem echo_is_not_completion_plain :
    ((∀ c ∈ ['7'], isCodeChar c = true) ∧ i32FromStr ['7'] = some 7) ∧
      shellCommandHasEndMarker (buildMarkedShellCommand "ls".toList plainMarkers none ++ [] ++
        (plainMarkers.stop ++ ':' :: (['7'] ++ ['\n']))) plainMarkers = true :=
  ⟨⟨List.forall_mem_singleton.mpr (by decide), by decide⟩,
    ((echo_is_not_completion_iff "a".toList 0 0 "ls".toList none [] ['7'] 7
      (List.forall_mem_singleton.mpr (by decide)) (by decide)).mpr
        ⟨by decide, by decide, .inl (by decide)⟩).2.1⟩

/-- The typed text of a command on a Windows host has the end marker with its colon. -/
theorem windows_echo_completes : ¬ plainMarkers.stop <:+: "dir".toList ∧
      shellCommandHasEndMarker (buildMarkedShellCommand "dir".toList plainMarkers
        (some "windows".toList)) plainMarkers = true := by
  decide +kernel

end Talos.Runner
