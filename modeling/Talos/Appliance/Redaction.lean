import Mathlib.Data.Bool.AllAny
import Mathlib.Data.List.Destutter
import Mathlib.Data.List.Sort
import Mathlib.Data.List.TakeWhile
import Talos.Rust.Redaction

/-!
# Redaction of diagnostics

`redact_text` replaces the known secrets and then works line by line. Where a sensitive key
is assigned, the line ends at the separator; otherwise the database URLs of the line are
replaced. What stands before the separator of the key that comes first in the table is not
looked at again, and the mark of a URL names a key itself.
-/

namespace Talos.Appliance

open Rust

def sensitiveKeys : List (List Char) :=
  ["APP_ENCRYPTION_KEY", "DATABASE_URL", "JWT_SECRET", "POSTGRES_PASSWORD", "RMM_SERVER_API_KEY",
    "TALOS_DATABASE_URL", "TALOS_POSTGRES_PASSWORD"].map String.toList

def schemes : List (List Char) := ["postgresql://", "postgres://"].map String.toList

def redactedMark : List Char := "[REDACTED]".toList

def urlMark : List Char := "[REDACTED_DATABASE_URL]".toList

def isSeparator (c : Char) : Bool := c = '=' || c = ':'

def isUrlEnd (c : Char) : Bool := isWhitespace c || "\"',]\x7d)".toList.contains c

/-- The text cut at the first place at which the rest has the property. -/
def cutAt (holds : List Char → Bool) : List Char → Option (List Char × List Char)
  | [] => none
  | c :: text =>
    if holds (c :: text) then some ([], c :: text)
    else (cutAt holds text).map fun cut => (c :: cut.1, cut.2)

/-- The text starts with one of the patterns after its letters are mapped. -/
def starts (letter : Char → Char) (patterns : List (List Char)) (text : List Char) : Bool :=
  patterns.any (·.isPrefixOf (text.map letter))

variable (line : List Char)

/-- The line up to the separator after the first occurrence of the key. -/
def assigned (key : List Char) : Option (List Char) :=
  (cutAt (starts Char.toUpper [key]) line).bind fun found =>
    (cutAt (·.head?.any isSeparator) (found.2.drop key.length)).map fun cut =>
      found.1 ++ found.2.take key.length ++ cut.1

/-- The first key in the order of the table decides. -/
def sensitive : Option (List Char) := sensitiveKeys.findSome? (assigned line)

/-- The loop over one scheme. The bound is the length of the line, and each turn takes
slashes away. -/
def redactScheme (scheme : List Char) : ℕ → List Char → List Char
  | 0, output => output
  | bound + 1, output =>
    match cutAt (starts id [scheme]) output with
    | none => output
    | some (before, tail) =>
      redactScheme scheme bound (before ++ urlMark ++ tail.dropWhile (!isUrlEnd ·))

def redactDatabaseUrls : List Char :=
  schemes.foldl (fun output scheme => redactScheme scheme output.length output) line

def redactLine : List Char :=
  match sensitive line with
  | some kept => kept ++ '=' :: redactedMark
  | none => redactDatabaseUrls line

def replaceSecrets (input : List Char) (secretValues : List (List Char)) : List Char :=
  redact (((secretValues.filter (4 ≤ byteLen ·)).insertionSort
    fun a b => byteLen b ≤ byteLen a).destutter (· ≠ ·)) redactedMark input

def redactText (input : List Char) (secretValues : List (List Char)) : List Char :=
  let result := ['\n'].intercalate ((lines (replaceSecrets input secretValues)).map redactLine)
  if input.getLast? = some '\n' then result ++ ['\n'] else result

/-! ## What a line may show -/

/-- Nothing, or the mark in the place of a value. -/
def Hidden (text : List Char) : Prop := text = [] ∨ text = '=' :: redactedMark

/-- No database URL, and the mark after every key with a separator. -/
structure Redacted (line : List Char) : Prop where
  urls : ∀ scheme ∈ schemes, ¬ scheme <:+: line
  keys : ∀ key ∈ sensitiveKeys, ∀ before name after, line = before ++ (name ++ after) →
    name.map Char.toUpper = key → Hidden (after.dropWhile (!isSeparator ·))

/-- Once a key or a database URL has begun, no separator stands outside the URLs, unless the
mark is already there. -/
def clean (seen inside : Bool) : List Char → Bool
  | [] => true
  | c :: line =>
    let inside := inside && !isUrlEnd c || starts id schemes (c :: line)
    let seen := seen || inside || starts Char.toUpper sensitiveKeys (c :: line)
    if isSeparator c && seen && !inside then c :: line = '=' :: redactedMark
    else clean seen inside line

/-- The first occurrence of the key on the line is at `text`, and `before` is the line up to the
separator that follows it. -/
def Assigns (key line before : List Char) : Prop :=
  ∃ text, text <:+ line ∧ starts Char.toUpper [key] text = true ∧
    (∀ other, other <:+ line → starts Char.toUpper [key] other = true →
      other.length ≤ text.length) ∧
    ∃ c rest, text.dropWhile (!isSeparator ·) = c :: rest ∧ line = before ++ c :: rest

/-- The lines that come out redacted. Where a key is followed by a separator, the separator of
the first such key of the table is the earliest that follows any key, and no URL stands before
it. -/
def Safe : Prop :=
  (∀ key ∈ sensitiveKeys, ∀ before, ¬ Assigns key line before) ∧ clean false false line = true ∨
    ∃ earlier key later before, sensitiveKeys = earlier ++ key :: later ∧
      Assigns key line before ∧ (∀ other ∈ earlier, ∀ cut, ¬ Assigns other line cut) ∧
      (∀ other ∈ sensitiveKeys, ∀ cut, Assigns other line cut → before.length ≤ cut.length) ∧
      ∀ scheme ∈ schemes, ¬ scheme <:+: before

/-! ## Patterns at a border -/

/-- No end of the pattern but the whole of it goes with the text. -/
def Apart (text pattern : List Char) : Prop :=
  ∀ part ∈ pattern.tails.tail, part ≠ [] → ¬ part <+: text ∧ ¬ text <+: part

instance (text pattern : List Char) : Decidable (Apart text pattern) :=
  inferInstanceAs (Decidable (∀ part ∈ _, _))

variable {pattern before rest : List Char}

theorem prefix_append_iff_of_apart {text : List Char} (h : Apart text pattern)
    (hbefore : before ≠ []) : pattern <+: before ++ (text ++ rest) ↔ pattern <+: before := by
  refine ⟨fun hpre => ?_, fun hpre => hpre.trans (List.prefix_append _ _)⟩
  obtain ⟨after, hafter⟩ := hpre
  rcases List.append_eq_append_iff.mp hafter with ⟨more, rfl, -⟩ | ⟨part, rfl, hpart⟩
  · exact List.prefix_append _ _
  · rcases part with _ | ⟨c, part⟩
    · rw [List.append_nil]
    · obtain ⟨b, before, rfl⟩ := List.exists_cons_of_ne_nil hbefore
      have hmem : c :: part ∈ ((b :: before) ++ c :: part).tails.tail :=
        (List.mem_tails _ _).mpr (List.suffix_append _ _)
      obtain ⟨hnot, hnot'⟩ := h _ hmem (List.cons_ne_nil _ _)
      rcases List.prefix_or_prefix_of_prefix (List.prefix_append (c :: part) after)
        (hpart ▸ List.prefix_append text rest) with hpre | hpre
      · exact absurd hpre hnot
      · exact absurd hpre hnot'

theorem starts_append {letter : Char → Char} {patterns : List (List Char)} {text : List Char}
    (h : ∀ pattern ∈ patterns, Apart (text.map letter) pattern) (hbefore : before ≠ [])
    (rest : List Char) :
    starts letter patterns (before ++ (text ++ rest)) = starts letter patterns before := by
  refine Bool.eq_iff_iff.mpr ?_
  simp only [starts, List.any_eq_true, List.isPrefixOf_iff_prefix, List.map_append]
  have hmapped : before.map letter ≠ [] := mt List.map_eq_nil_iff.mp hbefore
  exact exists_congr fun pattern => and_congr_right fun hpattern =>
    prefix_append_iff_of_apart (h pattern hpattern) hmapped

theorem apart_schemes : ∀ text ∈ ['='] :: ['['] :: schemes, ∀ pattern ∈ schemes,
    Apart (text.map id) pattern := by decide

theorem apart_keys : ∀ text ∈ ['='] :: ['['] :: schemes, ∀ pattern ∈ sensitiveKeys,
    Apart (text.map Char.toUpper) pattern := by decide

/-- In front of a border nothing starts that goes beyond it. -/
theorem starts_border {text : List Char} (htext : text ∈ ['='] :: ['['] :: schemes)
    (hbefore : before ≠ []) (rest : List Char) :
    starts id schemes (before ++ (text ++ rest)) = starts id schemes before ∧
      starts Char.toUpper sensitiveKeys (before ++ (text ++ rest)) =
        starts Char.toUpper sensitiveKeys before :=
  ⟨starts_append (apart_schemes text htext) hbefore rest,
    starts_append (apart_keys text htext) hbefore rest⟩

/-! ## Scanning -/

variable {part : List Char}

theorem clean_inside (hpart : ∀ c ∈ part, isUrlEnd c = false) (rest : List Char) :
    clean true true (part ++ rest) = clean true true rest := by
  induction part with
  | nil => rfl
  | cons c part ih =>
    have hc := hpart c List.mem_cons_self
    simp only [List.cons_append, clean, hc, Bool.not_false, Bool.and_self, Bool.true_or,
      Bool.not_true, Bool.and_false, Bool.false_eq_true, if_false]
    exact ih fun c hc => hpart c (List.mem_cons_of_mem _ hc)

theorem clean_urlMark (seen inside : Bool) (rest : List Char) :
    clean seen inside (urlMark ++ rest) = clean true false rest := by
  cases seen <;> cases inside <;> rfl

theorem clean_after_url (hrest : rest.head?.all isUrlEnd = true) :
    clean true true rest = clean true false rest := by
  cases rest with
  | nil => rfl
  | cons c rest => simp_all [clean]

theorem chars_of_scheme : ∀ scheme ∈ schemes, 11 ≤ scheme.length ∧ '/' ∈ scheme ∧
    ∀ c ∈ scheme, isUrlEnd c = false ∧ c ∉ urlMark ∧ c ∉ '=' :: redactedMark := by
  simp only [← List.all_iff_forall_prop]
  decide

variable {scheme : List Char}

theorem starts_scheme (hscheme : scheme ∈ schemes) (rest : List Char) :
    starts id schemes (scheme ++ rest) = true := by
  refine List.any_eq_true.mpr ⟨scheme, hscheme, List.isPrefixOf_iff_prefix.mpr ?_⟩
  rw [List.map_id]
  exact List.prefix_append _ _

/-- A line says the same with the mark in the place of a URL. -/
theorem clean_replace (hscheme : scheme ∈ schemes) (hpart : ∀ c ∈ part, isUrlEnd c = false)
    (hrest : rest.head?.all isUrlEnd = true) (before : List Char) (seen inside : Bool) :
    clean seen inside (before ++ (scheme ++ (part ++ rest))) =
      clean seen inside (before ++ (urlMark ++ rest)) := by
  induction before generalizing seen inside with
  | nil =>
    have hstart := starts_scheme hscheme (part ++ rest)
    obtain ⟨-, hslash, hchars⟩ := chars_of_scheme scheme hscheme
    obtain ⟨c, scheme, rfl⟩ := List.exists_cons_of_ne_nil (List.ne_nil_of_mem hslash)
    rw [List.nil_append, List.nil_append, clean_urlMark, ← clean_after_url hrest,
      ← clean_inside hpart, ← clean_inside fun c hc => (hchars c (List.mem_cons_of_mem _ hc)).1]
    rw [List.cons_append] at hstart ⊢
    simp [clean, hstart]
  | cons c before ih =>
    have hurl := starts_border (List.mem_cons_of_mem _ (List.mem_cons_of_mem _ hscheme))
      (List.cons_ne_nil c before) (part ++ rest)
    have hmark := starts_border (List.mem_cons_of_mem _ List.mem_cons_self)
      (List.cons_ne_nil c before) (urlMark.tail ++ rest)
    have hlong : ∀ text : List Char, 11 ≤ text.length →
        c :: (before ++ text) ≠ '=' :: redactedMark := by
      intro text htext heq
      have hlength : before.length + text.length + 1 = 11 := by
        rw [← List.length_append]
        exact congrArg List.length heq
      omega
    have hone := hlong (scheme ++ (part ++ rest)) (by
      rw [List.length_append]
      exact (chars_of_scheme scheme hscheme).1.trans (Nat.le_add_right _ _))
    have htwo := hlong (urlMark ++ rest) (by
      rw [List.length_append]
      exact Nat.le_trans (by decide) (Nat.le_add_right _ _))
    have hmark' : ['['] ++ (urlMark.tail ++ rest) = urlMark ++ rest := rfl
    rw [hmark'] at hmark
    simp only [List.cons_append] at hurl hmark ⊢
    simp only [clean, hurl.1, hurl.2, hmark.1, hmark.2, hone, htwo, ih]

variable {line : List Char}

/-- Without database URLs, a clean line hides what its keys are followed by. -/
theorem clean_iff (hurls : ∀ scheme ∈ schemes, ¬ scheme <:+: line) (seen : Bool) :
    clean seen false line = true ↔ (seen = true → Hidden (line.dropWhile (!isSeparator ·))) ∧
        ∀ text, text <:+ line → starts Char.toUpper sensitiveKeys text = true →
          Hidden (text.dropWhile (!isSeparator ·)) := by
  induction line generalizing seen with
  | nil =>
    refine ⟨fun _ => ⟨fun _ => .inl rfl, fun text htext hstarts => ?_⟩, fun _ => rfl⟩
    rw [List.suffix_nil.mp htext] at hstarts
    cases hstarts
  | cons c line ih =>
    have hstart : starts id schemes (c :: line) = false := by
      refine List.any_eq_false.mpr fun scheme hscheme hpre => hurls scheme hscheme ?_
      rw [List.map_id] at hpre
      exact (List.isPrefixOf_iff_prefix.mp hpre).isInfix
    have htail := ih fun scheme hscheme hin => hurls scheme hscheme (List.infix_cons hin)
    simp only [clean, hstart, Bool.false_and, Bool.or_false, Bool.not_false, Bool.and_true,
      List.suffix_cons_iff, forall_eq_or_imp]
    cases hsep : isSeparator c with
    | false =>
      have hdrop : (c :: line).dropWhile (!isSeparator ·) = line.dropWhile (!isSeparator ·) :=
        List.dropWhile_cons_of_pos (by rw [hsep]; rfl)
      rw [hdrop, Bool.false_and, if_neg Bool.false_ne_true, htail, Bool.or_eq_true, or_imp,
        and_assoc]
    | true =>
      have hkey : starts Char.toUpper sensitiveKeys (c :: line) = false := by
        rcases Bool.or_eq_true_iff.mp hsep with hc | hc <;> rw [of_decide_eq_true hc] <;> rfl
      have hdrop : (c :: line).dropWhile (!isSeparator ·) = c :: line :=
        List.dropWhile_cons_of_neg (by rw [hsep]; decide)
      rw [hkey, hdrop, Bool.or_false, Bool.true_and]
      cases seen with
      | false => simp [htail]
      | true =>
        simp only [if_true, decide_eq_true_eq, Hidden, List.cons_ne_nil, false_or, true_imp_iff,
          Bool.false_eq_true, false_imp_iff, true_and]
        refine ⟨fun heq => ⟨heq, fun text htext hstarts => ?_⟩, fun h => h.1⟩
        have hnone : ∀ text ∈ redactedMark.tails,
            starts Char.toUpper sensitiveKeys text = false := by decide
        rw [(List.cons.inj heq).2] at htext
        rw [hnone text ((List.mem_tails _ _).mpr htext)] at hstarts
        cases hstarts

/-! ## The loops -/

theorem infix_of_mark {mark : List Char} (hpattern : pattern ≠ []) (hmark : mark ≠ [])
    (hapart : ∀ c ∈ pattern, c ∉ mark) (h : pattern <:+: before ++ (mark ++ rest)) :
    pattern <:+: before ∨ pattern <:+: rest := by
  rcases List.infix_append_iff.mp h with h | h | ⟨first, second, rfl, hfirst, hsecond⟩
  · exact .inl h
  · rcases List.infix_append_iff.mp h with h | h | ⟨first, second, rfl, hfirst, hsecond⟩
    · obtain ⟨c, hc⟩ := List.exists_mem_of_ne_nil _ hpattern
      exact absurd (h.subset hc) (hapart c hc)
    · exact .inr h
    · cases first with
      | nil => exact .inr hsecond.isInfix
      | cons c first =>
        exact absurd (hfirst.subset List.mem_cons_self) (hapart c List.mem_cons_self)
  · cases second with
    | nil => exact .inl (by rw [List.append_nil]; exact hfirst.isInfix)
    | cons c second =>
      obtain ⟨d, mark, rfl⟩ := List.exists_cons_of_ne_nil hmark
      obtain ⟨rfl, -⟩ := List.cons_prefix_cons.mp hsecond
      exact absurd List.mem_cons_self (hapart c (by simp))

theorem cutAt_some {holds : List Char → Bool} {text : List Char}
    (h : cutAt holds text = some (before, rest)) : text = before ++ rest ∧ holds rest = true := by
  induction text generalizing before with
  | nil => cases h
  | cons c text ih =>
    rw [cutAt] at h
    split at h
    next hholds =>
      cases h
      exact ⟨rfl, hholds⟩
    · obtain ⟨⟨before, rest⟩, hcut, heq⟩ := Option.map_eq_some_iff.mp h
      cases heq
      obtain ⟨rfl, hrest⟩ := ih hcut
      exact ⟨rfl, hrest⟩

theorem not_infix_of_cutAt {text : List Char} (hpattern : pattern ≠ [])
    (h : cutAt (starts id [pattern]) text = none) : ¬ pattern <:+: text := by
  induction text with
  | nil => exact fun hin => hpattern (List.eq_nil_of_infix_nil hin)
  | cons c text ih =>
    rw [cutAt] at h
    split at h
    · cases h
    next hstarts =>
      rw [List.infix_cons_iff]
      rintro (hpre | hin)
      · exact hstarts (by simpa [starts, List.isPrefixOf_iff_prefix] using hpre)
      · exact ih (Option.map_eq_none_iff.mp h) hin

/-- What the loop over a scheme leaves of a line. -/
structure Loop (scheme output result : List Char) : Prop where
  clean : Appliance.clean false false result = Appliance.clean false false output
  gone : ¬ scheme <:+: result
  none_added : ∀ other ∈ schemes, ¬ other <:+: output → ¬ other <:+: result
  one_line : '\n' ∉ output → '\n' ∉ result

theorem loop_redactScheme (hscheme : scheme ∈ schemes) (bound : ℕ) (output : List Char)
    (hbound : output.count '/' ≤ bound) :
    Loop scheme output (redactScheme scheme bound output) := by
  obtain ⟨hlength, hslash, hchars⟩ := chars_of_scheme scheme hscheme
  have hne : scheme ≠ [] := List.ne_nil_of_mem hslash
  induction bound generalizing output with
  | zero =>
    refine ⟨rfl, fun hin => ?_, fun _ _ hother => hother, id⟩
    exact List.count_eq_zero.mp (Nat.le_zero.mp hbound) (hin.subset hslash)
  | succ bound ih =>
    rw [redactScheme]
    split
    next hcut => exact ⟨rfl, not_infix_of_cutAt hne hcut, fun _ _ hother => hother, id⟩
    next before tail hcut =>
      obtain ⟨rfl, hstarts⟩ := cutAt_some hcut
      have hpre : scheme <+: tail := by
        simpa [starts, List.isPrefixOf_iff_prefix] using hstarts
      obtain ⟨url, rfl⟩ := hpre
      rw [List.dropWhile_append_of_pos fun c hc => by rw [(hchars c hc).1]; rfl, List.append_assoc]
      have hurl := List.takeWhile_append_dropWhile (p := (!isUrlEnd ·)) (l := url)
      have hpart : ∀ c ∈ url.takeWhile (!isUrlEnd ·), isUrlEnd c = false := fun c hc => by
        simpa using List.all_eq_true.mp List.all_takeWhile c hc
      have hrest : (url.dropWhile (!isUrlEnd ·)).head?.all isUrlEnd = true := by
        have hhead := List.head?_dropWhile_not (!isUrlEnd ·) url
        cases hcase : (url.dropWhile (!isUrlEnd ·)).head? with
        | none => rfl
        | some c =>
          rw [hcase] at hhead
          simpa using hhead
      generalize url.takeWhile (!isUrlEnd ·) = part at hurl hpart
      generalize url.dropWhile (!isUrlEnd ·) = rest at hurl hrest ⊢
      subst hurl
      have hnext := ih (before ++ (urlMark ++ rest)) (by
        have hmark : urlMark.count '/' = 0 := by decide
        have hpos := List.count_pos_iff.mpr hslash
        simp only [List.count_append] at hbound ⊢
        omega)
      refine ⟨hnext.clean.trans (clean_replace hscheme hpart hrest before _ _).symm, hnext.gone,
        fun other hother hout => hnext.none_added other hother fun hin => hout ?_,
        fun hout => hnext.one_line fun hin => hout ?_⟩
      · obtain ⟨-, hmem, happart⟩ := chars_of_scheme other hother
        rcases infix_of_mark (List.ne_nil_of_mem hmem) (by decide) (fun c hc => (happart c hc).2.1)
          hin with hin | hin
        · exact hin.trans (List.prefix_append _ _).isInfix
        · exact hin.trans ⟨before ++ scheme ++ part, [], by simp⟩
      · have hmark : '\n' ∉ urlMark := by decide
        simp only [List.mem_append, hmark, false_or] at hin ⊢
        rcases hin with hin | hin
        · exact .inl hin
        · exact .inr (.inr (.inr hin))

theorem loop_redactDatabaseUrls (line : List Char) :
    clean false false (redactDatabaseUrls line) = clean false false line ∧
      (∀ scheme ∈ schemes, ¬ scheme <:+: redactDatabaseUrls line) ∧
      ('\n' ∉ line → '\n' ∉ redactDatabaseUrls line) := by
  have hfirst := loop_redactScheme (by decide : "postgresql://".toList ∈ schemes) line.length line
    List.count_le_length
  have hsecond := loop_redactScheme (by decide : "postgres://".toList ∈ schemes) _
    (redactScheme "postgresql://".toList line.length line) List.count_le_length
  refine ⟨hsecond.clean.trans hfirst.clean, fun scheme hscheme => ?_,
    fun hline => hsecond.one_line (hfirst.one_line hline)⟩
  rcases List.mem_pair.mp hscheme with rfl | rfl
  · exact hsecond.none_added _ (by decide) hfirst.gone
  · exact hsecond.gone

/-! ## Lines -/

theorem not_isSeparator_of_key {name : List Char} (hkey : name.map Char.toUpper ∈ sensitiveKeys) :
    ∀ c ∈ name, (!isSeparator c) = true := by
  intro c hc
  have hkeys : ∀ key ∈ sensitiveKeys, '=' ∉ key ∧ ':' ∉ key := by decide
  obtain ⟨hequals, hcolon⟩ := hkeys _ hkey
  rw [Bool.not_eq_true_eq_eq_false, Bool.eq_false_iff]
  intro hsep
  rcases Bool.or_eq_true_iff.mp hsep with heq | heq
  · exact hequals (List.mem_map.mpr ⟨c, hc, by rw [of_decide_eq_true heq]; rfl⟩)
  · exact hcolon (List.mem_map.mpr ⟨c, hc, by rw [of_decide_eq_true heq]; rfl⟩)

/-- A text that starts with a key is its name and what follows. -/
theorem exists_name_of_starts {keys : List (List Char)} {text : List Char}
    (h : starts Char.toUpper keys text = true) :
    ∃ name after, text = name ++ after ∧ name.map Char.toUpper ∈ keys := by
  obtain ⟨key, hkey, hpre⟩ := List.any_eq_true.mp h
  obtain ⟨more, hmore⟩ := List.isPrefixOf_iff_prefix.mp hpre
  obtain ⟨name, after, rfl, rfl, -⟩ := List.map_eq_append_iff.mp hmore.symm
  exact ⟨name, after, rfl, hkey⟩

theorem starts_of_name {keys : List (List Char)} {name : List Char}
    (hkey : name.map Char.toUpper ∈ keys) (after : List Char) :
    starts Char.toUpper keys (name ++ after) = true := by
  refine List.any_eq_true.mpr ⟨_, hkey, List.isPrefixOf_iff_prefix.mpr ?_⟩
  rw [List.map_append]
  exact List.prefix_append _ _

/-- The keys of a line, by the texts that start with one. -/
theorem keys_iff (line : List Char) :
    (∀ key ∈ sensitiveKeys, ∀ before name after, line = before ++ (name ++ after) →
      name.map Char.toUpper = key → Hidden (after.dropWhile (!isSeparator ·))) ↔
    ∀ text, text <:+ line → starts Char.toUpper sensitiveKeys text = true →
      Hidden (text.dropWhile (!isSeparator ·)) := by
  constructor
  · rintro h text ⟨before, rfl⟩ hstarts
    obtain ⟨name, after, rfl, hkey⟩ := exists_name_of_starts hstarts
    rw [List.dropWhile_append_of_pos (not_isSeparator_of_key hkey)]
    exact h _ hkey before name after rfl rfl
  · rintro h _ hkey before name after rfl rfl
    have htext := h (name ++ after) (List.suffix_append _ _) (starts_of_name hkey after)
    rwa [List.dropWhile_append_of_pos (not_isSeparator_of_key hkey)] at htext

/-- A text before the mark is hidden when it has no separator. -/
theorem hidden_append_iff (text : List Char) :
    Hidden ((text ++ '=' :: redactedMark).dropWhile (!isSeparator ·)) ↔
      ∀ c ∈ text, isSeparator c = false := by
  refine ⟨fun h => ?_, fun h => ?_⟩
  · rw [List.dropWhile_append] at h
    split at h
    next hnone => simpa [List.dropWhile_eq_nil_iff] using hnone
    next hsome =>
      rcases h with h | h
      · cases (List.append_eq_nil_iff.mp h).2
      · exact absurd (List.append_left_eq_self.mp h) (by simpa using hsome)
  · rw [List.dropWhile_append_of_pos fun c hc => by rw [h c hc]; rfl]
    exact .inr rfl

/-! ## The key that is chosen -/

theorem cutAt_first {holds : List Char → Bool} {text : List Char}
    (h : cutAt holds text = some (before, rest)) :
    ∀ other, other <:+ text → holds other = true → other.length ≤ rest.length := by
  induction text generalizing before with
  | nil => cases h
  | cons c text ih =>
    rw [cutAt] at h
    split at h
    · cases h
      exact fun other hother _ => hother.length_le
    next hnot =>
      obtain ⟨⟨before, rest⟩, hcut, heq⟩ := Option.map_eq_some_iff.mp h
      cases heq
      intro other hother hholds
      rcases List.suffix_cons_iff.mp hother with rfl | hother
      · exact absurd hholds hnot
      · exact ih hcut other hother hholds

theorem exists_cutAt {holds : List Char → Bool} {text other : List Char} (hother : other <:+ text)
    (hholds : holds other = true) (hne : other ≠ []) :
    ∃ before rest, cutAt holds text = some (before, rest) := by
  induction text with
  | nil => exact absurd (List.suffix_nil.mp hother) hne
  | cons c text ih =>
    rw [cutAt]
    split
    · exact ⟨_, _, rfl⟩
    next hnot =>
      rcases List.suffix_cons_iff.mp hother with rfl | hother
      · exact absurd hholds hnot
      · obtain ⟨before, rest, hcut⟩ := ih hother
        exact ⟨_, _, by rw [hcut]; rfl⟩

theorem cutAt_separator {text between after : List Char} :
    cutAt (·.head?.any isSeparator) text = some (between, after) ↔
      text.dropWhile (!isSeparator ·) = after ∧ after ≠ [] ∧ text = between ++ after := by
  induction text generalizing between with
  | nil =>
    refine ⟨fun h => by simp [cutAt] at h, ?_⟩
    rintro ⟨rfl, hne, -⟩
    exact absurd rfl hne
  | cons c text ih =>
    rw [cutAt]
    cases hsep : isSeparator c with
    | true =>
      simp only [List.head?_cons, Option.any_some, hsep, if_true, Option.some.injEq, Prod.mk.injEq,
        List.dropWhile_cons, Bool.not_true, Bool.false_eq_true, if_false]
      constructor
      · rintro ⟨rfl, rfl⟩
        exact ⟨rfl, List.cons_ne_nil _ _, rfl⟩
      · rintro ⟨rfl, -, heq⟩
        exact ⟨(List.self_eq_append_left.mp heq).symm, rfl⟩
    | false =>
      simp only [List.head?_cons, Option.any_some, hsep, Bool.false_eq_true, if_false,
        List.dropWhile_cons, Bool.not_false, if_true, Option.map_eq_some_iff, Prod.exists,
        Prod.mk.injEq]
      constructor
      · rintro ⟨between, after, hcut, rfl, rfl⟩
        obtain ⟨hdrop, hne, rfl⟩ := ih.mp hcut
        exact ⟨hdrop, hne, rfl⟩
      · rintro ⟨hdrop, hne, heq⟩
        have hle : after.length ≤ text.length := hdrop ▸ List.length_dropWhile_le _ _
        cases between with
        | nil =>
          rw [List.nil_append] at heq
          rw [← heq, List.length_cons] at hle
          omega
        | cons d between =>
          obtain ⟨rfl, rfl⟩ := List.cons.inj heq
          exact ⟨between, after, ih.mpr ⟨hdrop, hne, rfl⟩, rfl, rfl⟩

theorem assigned_eq_some_iff {key : List Char} (hkey : key ∈ sensitiveKeys) :
    assigned line key = some before ↔ Assigns key line before := by
  constructor
  · intro h
    obtain ⟨⟨head, text⟩, hfound, h⟩ := Option.bind_eq_some_iff.mp h
    obtain ⟨⟨between, after⟩, hcut, rfl⟩ := Option.map_eq_some_iff.mp h
    obtain ⟨rfl, hstarts⟩ := cutAt_some hfound
    obtain ⟨name, rest, rfl, hname⟩ := exists_name_of_starts hstarts
    obtain rfl := List.mem_singleton.mp hname
    rw [List.length_map, List.drop_left] at hcut
    obtain ⟨hdrop, hne, rfl⟩ := cutAt_separator.mp hcut
    obtain ⟨c, after, rfl⟩ := List.exists_cons_of_ne_nil hne
    refine ⟨_, List.suffix_append _ _, hstarts, cutAt_first hfound, c, after, ?_, ?_⟩
    · rw [List.dropWhile_append_of_pos (not_isSeparator_of_key hkey), hdrop]
    · simp
  · rintro ⟨text, hsuffix, hstarts, hfirst, c, after, hdrop, hline⟩
    obtain ⟨name, rest, rfl, hname⟩ := exists_name_of_starts hstarts
    obtain rfl := List.mem_singleton.mp hname
    rw [List.dropWhile_append_of_pos (not_isSeparator_of_key hkey)] at hdrop
    have hne : name ++ rest ≠ [] := by
      rintro hnil
      rw [(List.append_eq_nil_iff.mp hnil).2] at hdrop
      cases hdrop
    obtain ⟨head, text, hfound⟩ := exists_cutAt hsuffix hstarts hne
    obtain ⟨hsplit, hholds⟩ := cutAt_some hfound
    have hlength := Nat.le_antisymm (hfirst text ⟨head, hsplit.symm⟩ hholds)
      (cutAt_first hfound _ hsuffix hstarts)
    obtain rfl :=
      (List.suffix_of_suffix_length_le ⟨head, hsplit.symm⟩ hsuffix hlength.le).eq_of_length hlength
    obtain ⟨between, hbetween⟩ := List.dropWhile_suffix (l := rest) (!isSeparator ·)
    rw [hdrop] at hbetween
    have hcut := cutAt_separator.mpr ⟨hdrop, List.cons_ne_nil c after, hbetween.symm⟩
    have hbefore : head ++ (name ++ between) = before := by
      rw [hsplit, ← hbetween, ← List.append_assoc name, ← List.append_assoc head] at hline
      exact List.append_cancel_right hline
    simp [assigned, hfound, hcut, hbefore]

theorem sensitive_eq_some_iff : sensitive line = some before ↔
    ∃ earlier key later, sensitiveKeys = earlier ++ key :: later ∧ Assigns key line before ∧
      ∀ other ∈ earlier, ∀ cut, ¬ Assigns other line cut := by
  rw [sensitive, List.findSome?_eq_some_iff]
  refine exists₃_congr fun earlier key later => and_congr_right fun htable => ?_
  have hkey : key ∈ sensitiveKeys := by simp [htable]
  rw [assigned_eq_some_iff hkey]
  refine and_congr_right fun _ => forall₂_congr fun other hother => ?_
  have hother : other ∈ sensitiveKeys := by simp [htable, hother]
  simp only [Option.eq_none_iff_forall_ne_some, ne_eq, assigned_eq_some_iff hother]

theorem sensitive_eq_none_iff :
    sensitive line = none ↔ ∀ key ∈ sensitiveKeys, ∀ before, ¬ Assigns key line before := by
  rw [sensitive, List.findSome?_eq_none_iff]
  refine forall₂_congr fun key hkey => ?_
  simp only [Option.eq_none_iff_forall_ne_some, ne_eq, assigned_eq_some_iff hkey]

variable {kept : List Char}

theorem prefix_of_sensitive (h : sensitive line = some kept) : kept <+: line := by
  obtain ⟨_, _, _, _, ⟨_, _, _, _, c, rest, _, hline⟩, _⟩ := sensitive_eq_some_iff.mp h
  exact ⟨c :: rest, hline.symm⟩

theorem length_takeWhile_le {c : Char} (hsep : isSeparator c = true) (before after : List Char) :
    ((before ++ c :: after).takeWhile (!isSeparator ·)).length ≤ before.length := by
  induction before with
  | nil => simp [hsep]
  | cons d before ih =>
    rw [List.cons_append, List.takeWhile_cons]
    split
    · exact Nat.succ_le_succ ih
    · exact Nat.zero_le _

/-- In what is kept of a line no key has a separator exactly when none of the separators that
follow a key on the line comes earlier. -/
theorem no_separator_iff (hkept : kept <+: line) :
    (∀ text, text <:+ kept → starts Char.toUpper sensitiveKeys text = true →
        ∀ c ∈ text, isSeparator c = false) ↔
      ∀ key ∈ sensitiveKeys, ∀ cut, Assigns key line cut → kept.length ≤ cut.length := by
  constructor
  · rintro h key hkey cut ⟨text, ⟨head, hhead⟩, hstarts, -, c, rest, hdrop, hline⟩
    by_contra hshort
    obtain ⟨name, after, rfl, hname⟩ := exists_name_of_starts hstarts
    obtain rfl := List.mem_singleton.mp hname
    rw [List.dropWhile_append_of_pos (not_isSeparator_of_key hkey)] at hdrop
    have hafter := List.takeWhile_append_dropWhile (p := (!isSeparator ·)) (l := after)
    rw [hdrop] at hafter
    have hcut : cut = head ++ (name ++ after.takeWhile (!isSeparator ·)) := by
      rw [← hhead, ← hafter, ← List.append_assoc name, ← List.append_assoc head] at hline
      exact (List.append_cancel_right hline).symm
    -- the separator itself is kept, since the cut is shorter
    obtain ⟨part, rfl⟩ := List.prefix_of_prefix_length_le ⟨c :: rest, hline.symm⟩ hkept
      (not_le.mp hshort).le
    have hpart : part <+: c :: rest := (List.prefix_append_right_inj cut).mp (hline ▸ hkept)
    cases part with
    | nil => simp at hshort
    | cons d part =>
      obtain ⟨rfl, -⟩ := List.cons_prefix_cons.mp hpart
      have hsep : (!isSeparator d) = false := by
        have hhead := List.head?_dropWhile_not (!isSeparator ·) after
        rwa [hdrop] at hhead
      have hnone := h (name ++ (after.takeWhile (!isSeparator ·) ++ d :: part))
        ⟨head, by rw [hcut]; simp⟩ (starts_of_name hkey _) d (by simp)
      rw [hnone] at hsep
      cases hsep
  · rintro h text ⟨head, rfl⟩ hstarts c hc
    by_contra hsep
    rw [Bool.not_eq_false] at hsep
    obtain ⟨more, rfl⟩ := hkept
    obtain ⟨name, after, rfl, hkey⟩ := exists_name_of_starts hstarts
    have hlater : name ++ (after ++ more) <:+ head ++ (name ++ after) ++ more :=
      ⟨head, by simp⟩
    have hnamed : starts Char.toUpper [name.map Char.toUpper] (name ++ (after ++ more)) = true :=
      starts_of_name (List.mem_singleton_self _) _
    obtain ⟨before, first, hfound⟩ := exists_cutAt hlater hnamed
      (by
        rw [← List.append_assoc]
        exact List.append_ne_nil_of_left_ne_nil (List.ne_nil_of_mem hc) _)
    obtain ⟨hsplit, hfirst⟩ := cutAt_some hfound
    -- the first occurrence is this one or an earlier one, so its separator is not later
    obtain ⟨gap, rfl⟩ := List.suffix_of_suffix_length_le hlater ⟨before, hsplit.symm⟩
      (cutAt_first hfound _ hlater hnamed)
    obtain ⟨front, back, htext⟩ := List.append_of_mem hc
    have hwhole : gap ++ (name ++ (after ++ more)) = (gap ++ front) ++ c :: (back ++ more) := by
      rw [← List.append_assoc name, htext]
      simp
    have hne : (gap ++ (name ++ (after ++ more))).dropWhile (!isSeparator ·) ≠ [] := by
      rw [Ne, List.dropWhile_eq_nil_iff, hwhole]
      exact fun hall => by simpa [hsep] using hall c (by simp)
    obtain ⟨d, rest, hdrop⟩ := List.exists_cons_of_ne_nil hne
    have hparts := List.takeWhile_append_dropWhile (p := (!isSeparator ·))
      (l := gap ++ (name ++ (after ++ more)))
    have hshort := length_takeWhile_le hsep (gap ++ front) (back ++ more)
    rw [← hwhole] at hshort
    have hcut := h _ hkey (before ++ (gap ++ (name ++ (after ++ more))).takeWhile (!isSeparator ·))
      ⟨_, ⟨before, hsplit.symm⟩, hfirst, cutAt_first hfound, d, rest, hdrop, by
        rw [hsplit, ← hdrop, List.append_assoc, hparts]⟩
    have hhead := congrArg List.length hsplit
    have hlength := congrArg List.length htext
    simp only [List.length_append, List.length_cons] at hcut hshort hhead hlength
    omega

theorem safe_iff_of_sensitive (h : sensitive line = some kept) :
    Safe line ↔ (∀ scheme ∈ schemes, ¬ scheme <:+: kept) ∧
      ∀ text, text <:+ kept → starts Char.toUpper sensitiveKeys text = true →
        ∀ c ∈ text, isSeparator c = false := by
  rw [no_separator_iff (prefix_of_sensitive h)]
  constructor
  · rintro (⟨hnone, -⟩ | ⟨earlier, key, later, before, htable, hkey, hearlier, hfirst, hurls⟩)
    · rw [sensitive_eq_none_iff.mpr hnone] at h
      cases h
    · rw [sensitive_eq_some_iff.mpr ⟨earlier, key, later, htable, hkey, hearlier⟩] at h
      cases h
      exact ⟨hurls, hfirst⟩
  · rintro ⟨hurls, hfirst⟩
    obtain ⟨earlier, key, later, htable, hkey, hearlier⟩ := sensitive_eq_some_iff.mp h
    exact .inr ⟨earlier, key, later, kept, htable, hkey, hearlier, hfirst, hurls⟩

theorem safe_iff_of_not_sensitive (h : sensitive line = none) :
    Safe line ↔ clean false false line = true := by
  refine ⟨?_, fun hclean => .inl ⟨sensitive_eq_none_iff.mp h, hclean⟩⟩
  rintro (⟨-, hclean⟩ | ⟨earlier, key, later, before, htable, hkey, -⟩)
  · exact hclean
  · exact absurd hkey (sensitive_eq_none_iff.mp h key (by simp [htable]) before)

theorem redacted_redactLine_iff (line : List Char) : Redacted (redactLine line) ↔ Safe line := by
  unfold redactLine
  cases hkept : sensitive line with
  | none =>
    obtain ⟨hclean, hurls, -⟩ := loop_redactDatabaseUrls line
    dsimp only
    rw [safe_iff_of_not_sensitive hkept, ← hclean, clean_iff hurls, ← keys_iff]
    exact ⟨fun h => ⟨nofun, h.keys⟩, fun h => ⟨hurls, h.2⟩⟩
  | some kept =>
    have hurls : (∀ scheme ∈ schemes, ¬ scheme <:+: kept ++ '=' :: redactedMark) ↔
        ∀ scheme ∈ schemes, ¬ scheme <:+: kept := by
      refine forall₂_congr fun scheme hscheme => not_congr ⟨fun hin => ?_, fun hin => ?_⟩
      · obtain ⟨-, hslash, hchars⟩ := chars_of_scheme scheme hscheme
        have hne := List.ne_nil_of_mem hslash
        rw [← List.append_nil ('=' :: redactedMark)] at hin
        rcases infix_of_mark hne (by decide) (fun c hc => (hchars c hc).2.2) hin with hin | hin
        · exact hin
        · exact absurd (List.eq_nil_of_infix_nil hin) hne
      · exact hin.trans (List.prefix_append _ _).isInfix
    have hnone : ∀ text ∈ ('=' :: redactedMark).tails,
        starts Char.toUpper sensitiveKeys text = false := by decide
    have hborder : ∀ text : List Char,
        starts Char.toUpper sensitiveKeys (text ++ '=' :: redactedMark) =
          starts Char.toUpper sensitiveKeys text := by
      intro text
      cases text with
      | nil => rfl
      | cons c text =>
        exact (starts_border List.mem_cons_self (List.cons_ne_nil c text) redactedMark).2
    rw [safe_iff_of_sensitive hkept]
    refine ⟨fun h => ⟨hurls.mp h.urls, ?_⟩, fun h => ⟨hurls.mpr h.1, (keys_iff _).mpr ?_⟩⟩
    · rintro text ⟨before, rfl⟩ hstarts
      rw [← hidden_append_iff]
      exact (keys_iff _).mp h.keys _ ⟨before, (List.append_assoc ..).symm⟩ (by rwa [hborder])
    · rintro text ⟨before, hbefore⟩ hstarts
      rcases List.append_eq_append_iff.mp hbefore with ⟨part, rfl, rfl⟩ | ⟨part, -, hmark⟩
      · rw [hborder] at hstarts
        exact (hidden_append_iff part).mpr (h.2 part (List.suffix_append _ _) hstarts)
      · rw [hnone text ((List.mem_tails _ _).mpr ⟨part, hmark.symm⟩)] at hstarts
        cases hstarts

/-! ## Texts -/

theorem not_mem_of_mem_lines {text : List Char} (h : line ∈ lines text) : '\n' ∉ line := by
  have hparts : ∀ (text : List Char), ∀ part ∈ text.splitOnP (· = '\n'), '\n' ∉ part := by
    intro text
    induction text with
    | nil => simp
    | cons c text ih =>
      rw [List.splitOnP_cons_eq_if_modifyHead]
      split
      · exact List.forall_mem_cons.mpr ⟨List.not_mem_nil, ih⟩
      next hc =>
        cases hsplit : text.splitOnP (· = '\n') with
        | nil => simp
        | cons part parts =>
          rw [hsplit] at ih
          obtain ⟨hpart, hrest⟩ := List.forall_mem_cons.mp ih
          refine List.forall_mem_cons.mpr ⟨fun hmem => ?_, hrest⟩
          rcases List.mem_cons.mp hmem with rfl | hmem
          · exact hc (by decide)
          · exact hpart hmem
  rcases List.mem_append.mp h with h | h
  · obtain ⟨part, hpart, rfl⟩ := List.mem_map.mp h
    refine fun hmem => hparts text part (List.mem_of_mem_dropLast hpart) ?_
    unfold stripCarriageReturn at hmem
    split at hmem
    · exact List.mem_of_mem_dropLast hmem
    · exact hmem
  · have hlast := Option.mem_filter_iff.mp (Option.mem_toList.mp h)
    exact hparts text line (List.mem_of_mem_getLast? hlast.1)

theorem not_mem_redactLine (h : '\n' ∉ line) : '\n' ∉ redactLine line := by
  unfold redactLine
  split
  next kept hkept =>
    intro hmem
    rcases List.mem_append.mp hmem with hmem | hmem
    · exact h ((prefix_of_sensitive hkept).subset hmem)
    · exact absurd hmem (by decide)
  · exact (loop_redactDatabaseUrls line).2.2 h

/-- The text comes out without credentials exactly when each line of it does, once the secret
values are replaced. -/
theorem redactText_leaves_no_credentials_iff (input : List Char) (secretValues : List (List Char)) :
    (∀ line ∈ (redactText input secretValues).splitOn '\n', Redacted line) ↔
      ∀ line ∈ lines (replaceSecrets input secretValues), Safe line := by
  have hnil : Redacted [] := by
    refine ⟨fun scheme hscheme hin => ?_, (keys_iff []).mpr fun text htext hstarts => ?_⟩
    · exact List.ne_nil_of_mem (chars_of_scheme scheme hscheme).2.1 (List.eq_nil_of_infix_nil hin)
    · rw [List.suffix_nil.mp htext] at hstarts
      cases hstarts
  have hparts : (∀ line ∈ (lines (replaceSecrets input secretValues)).map redactLine,
      Redacted line) ↔ ∀ line ∈ lines (replaceSecrets input secretValues), Safe line := by
    rw [List.forall_mem_map]
    exact forall₂_congr fun line _ => redacted_redactLine_iff line
  have honeLine : ∀ line ∈ (lines (replaceSecrets input secretValues)).map redactLine,
      '\n' ∉ line := List.forall_mem_map.mpr fun line hline =>
    not_mem_redactLine (not_mem_of_mem_lines hline)
  rw [← hparts]
  unfold redactText
  generalize (lines (replaceSecrets input secretValues)).map redactLine = parts at honeLine ⊢
  have hsplit : (∀ line ∈ (['\n'].intercalate parts).splitOn '\n', Redacted line) ↔
      ∀ line ∈ parts, Redacted line := by
    by_cases hempty : parts = []
    · rw [hempty]
      simp [hnil]
    · rw [List.splitOn_intercalate _ honeLine hempty]
  dsimp only
  split
  · rw [List.splitOn_eq_splitOnP, List.splitOnP_append_cons _ _ (by decide), List.forall_mem_append,
      ← List.splitOn_eq_splitOnP, hsplit]
    simp [hnil]
  · exact hsplit

/-- The table has the URL before the token, so the token stays. -/
theorem second_key_is_shown : redactText "JWT_SECRET=abc DATABASE_URL=x".toList [] =
        "JWT_SECRET=abc DATABASE_URL=[REDACTED]".toList ∧
      ¬ ∀ line ∈ (redactText "JWT_SECRET=abc DATABASE_URL=x".toList []).splitOn '\n',
        Redacted line := by
  have htext : redactText "JWT_SECRET=abc DATABASE_URL=x".toList [] =
      "JWT_SECRET=abc DATABASE_URL=[REDACTED]".toList := by decide
  refine ⟨htext, fun h => ?_⟩
  rw [htext] at h
  have hline := (h "JWT_SECRET=abc DATABASE_URL=[REDACTED]".toList (by decide)).keys
    "JWT_SECRET".toList (by decide) [] "JWT_SECRET".toList
    "=abc DATABASE_URL=[REDACTED]".toList rfl rfl
  revert hline
  unfold Hidden
  decide


end Talos.Appliance
