import Mathlib.Data.List.Sort
import Mathlib.Data.Prod.Lex
import Talos.JavaScript.Rounding
import Talos.JavaScript.Runtime

/-!
# The policy of a device

`resolveEffectivePatchPolicy` filters the policies that apply to a device and sorts them.
The comparison subtracts numbers that are integers, so that rounding does not change its
sign, and it is the lexicographic order of `rank`.
-/

namespace Talos.Decision

open JavaScript

inductive PatchPolicyScopeType where
  | organization
  | customer
  | site
  | device
deriving DecidableEq

inductive PatchPolicyTargetOsFamily where
  | all
  | windows
  | linux
  | macos
deriving DecidableEq

def PatchPolicyTargetOsFamily.text : PatchPolicyTargetOsFamily → String
  | all => "all"
  | windows => "windows"
  | linux => "linux"
  | macos => "macos"

/-- The fields of a policy that choose it. -/
structure PatchPolicyForResolution where
  id : String
  scopeType : PatchPolicyScopeType
  scopeKey : String
  targetOsFamily : Option PatchPolicyTargetOsFamily
  priority : Number
  enabled : Bool
  isDefault : Option Bool
  updatedAt : Option Date.Input
deriving DecidableEq

structure PatchDeviceScope where
  organizationId : String
  customerId : Option String
  siteId : Option String
  agentId : Option String
  osFamily : Option String

def customPatchPolicyDefaultPriority : ℤ := 100

def defaultPatchPolicyPriority : ℤ := 10000

variable (js : Runtime) (policy : PatchPolicyForResolution)

def policyUpdatedAtMs : ℤ :=
  match policy.updatedAt with
  | none => 0
  | some (.text text) => if text = "" then 0 else ((js.dateParse text).map (·.value)).getD 0
  | some (.date time) => (time.map (·.value)).getD 0

/-- A priority that is not an integer gives way to the default one. -/
def policyPriority : ℤ :=
  let fallback := if policy.isDefault = some true then defaultPatchPolicyPriority
    else customPatchPolicyDefaultPriority
  match policy.priority with
  | .finite x => if x.den = 1 then x.num else fallback
  | _ => fallback

def policyApplies (scope : PatchDeviceScope) (policy : PatchPolicyForResolution) : Bool :=
  let targetOsFamily := policy.targetOsFamily.getD .all
  let owns (id : Option String) : Bool := id.any fun id => id ≠ "" && policy.scopeKey = id
  if !policy.enabled then false
  else if targetOsFamily ≠ .all ∧ some targetOsFamily.text ≠ scope.osFamily then false
  else if policy.isDefault = some true then policy.scopeType = .organization
  else
    match policy.scopeType with
    | .device => owns scope.agentId
    | .site => owns scope.siteId
    | .customer => owns scope.customerId
    | .organization => policy.scopeKey = scope.organizationId

def scopeSpecificity : PatchPolicyScopeType → ℤ
  | .organization => 1
  | .customer => 2
  | .site => 3
  | .device => 4

def policySpecificity : ℤ :=
  if policy.isDefault = some true then 0 else scopeSpecificity policy.scopeType

def comparePolicies (a b : PatchPolicyForResolution) : Number :=
  let priorityDelta := (Number.ofInt (policyPriority a)).sub (.ofInt (policyPriority b))
  let specificityDelta := (Number.ofInt (policySpecificity b)).sub (.ofInt (policySpecificity a))
  if !priorityDelta.same (.ofInt 0) then priorityDelta
  else if !specificityDelta.same (.ofInt 0) then specificityDelta
  else (Number.ofInt (policyUpdatedAtMs js b)).sub (.ofInt (policyUpdatedAtMs js a))

/-- The sort leaves the first policy before the second unless the comparison is positive. -/
def resolveEffectivePatchPolicy (policies : List PatchPolicyForResolution)
    (scope : PatchDeviceScope) : Option PatchPolicyForResolution :=
  ((policies.filter (policyApplies scope)).insertionSort fun a b =>
    (Number.ofInt 0).lt (comparePolicies js a b) = false).head?

/-! ## The order of the policies -/

/-- The priority, then the specificity and the time of the last change, largest first. -/
def rank : ℤ ×ₗ ℤ ×ₗ ℤ :=
  toLex (policyPriority policy, toLex (-policySpecificity policy, -policyUpdatedAtMs js policy))

theorem comparePolicies_iff (a b : PatchPolicyForResolution) :
    (Number.ofInt 0).lt (comparePolicies js a b) = false ↔ rank js a ≤ rank js b := by
  unfold comparePolicies rank
  simp only [Number.sub_ofInt_sign, Prod.Lex.toLex_le_toLex, Bool.not_eq_true',
    decide_eq_false_iff_not]
  split_ifs <;> simp only [Number.sub_ofInt_sign, decide_eq_false_iff_not] <;> omega

section

variable {js : Runtime} {policies : List PatchPolicyForResolution} {scope : PatchDeviceScope}
  {policy : PatchPolicyForResolution}

theorem resolveEffectivePatchPolicy_eq_some
    (h : resolveEffectivePatchPolicy js policies scope = some policy) :
    (policy ∈ policies ∧ policyApplies scope policy = true) ∧
      ∀ other ∈ policies, policyApplies scope other = true → rank js policy ≤ rank js other := by
  unfold resolveEffectivePatchPolicy at h
  simp only [comparePolicies_iff] at h
  have : Std.Total fun a b : PatchPolicyForResolution => rank js a ≤ rank js b :=
    ⟨fun _ _ => le_total _ _⟩
  have : IsTrans PatchPolicyForResolution fun a b => rank js a ≤ rank js b :=
    ⟨fun _ _ _ => le_trans⟩
  obtain ⟨rest, hsorted⟩ := List.head?_eq_some_iff.mp h
  have hpairwise := List.pairwise_insertionSort (fun a b => rank js a ≤ rank js b)
    (policies.filter (policyApplies scope))
  have hmem : ∀ other, other ∈ policy :: rest ↔
      other ∈ policies ∧ policyApplies scope other = true := by
    intro other
    rw [← hsorted, List.mem_insertionSort, List.mem_filter]
  rw [hsorted, List.pairwise_cons] at hpairwise
  refine ⟨(hmem policy).mp List.mem_cons_self, fun other hother happlies => ?_⟩
  rcases List.mem_cons.mp ((hmem other).mpr ⟨hother, happlies⟩) with rfl | hrest
  · exact le_rfl
  · exact hpairwise.1 other hrest

theorem resolveEffectivePatchPolicy_eq_none : resolveEffectivePatchPolicy js policies scope = none ↔
      ∀ policy ∈ policies, policyApplies scope policy = false := by
  rw [resolveEffectivePatchPolicy, List.head?_eq_none_iff, ← List.length_eq_zero_iff,
    List.length_insertionSort, List.length_eq_zero_iff, List.filter_eq_nil_iff]
  simp only [Bool.not_eq_true]

end

theorem effective_policy_least (js : Runtime) (policies : List PatchPolicyForResolution)
    (scope : PatchDeviceScope) :
    (resolveEffectivePatchPolicy js policies scope = none ↔
      ∀ policy ∈ policies, policyApplies scope policy = false) ∧
    (∀ policy, resolveEffectivePatchPolicy js policies scope = some policy →
      (policy ∈ policies ∧ policyApplies scope policy = true) ∧
        ∀ other ∈ policies, policyApplies scope other = true → rank js policy ≤ rank js other) ∧
    ((policies.filter (policyApplies scope)).Pairwise (fun a b => rank js a ≠ rank js b) →
      ∀ policies', policies'.Perm policies → resolveEffectivePatchPolicy js policies' scope
          = resolveEffectivePatchPolicy js policies scope) := by
  refine ⟨resolveEffectivePatchPolicy_eq_none, fun policy => resolveEffectivePatchPolicy_eq_some,
    fun hdistinct policies' hperm => ?_⟩
  cases hfirst : resolveEffectivePatchPolicy js policies scope with
  | none =>
    rw [resolveEffectivePatchPolicy_eq_none] at hfirst ⊢
    exact fun policy hpolicy => hfirst policy (hperm.mem_iff.mp hpolicy)
  | some policy =>
    obtain ⟨⟨hmem, happlies⟩, hleast⟩ := resolveEffectivePatchPolicy_eq_some hfirst
    cases hsecond : resolveEffectivePatchPolicy js policies' scope with
    | none =>
      rw [resolveEffectivePatchPolicy_eq_none] at hsecond
      rw [hsecond policy (hperm.mem_iff.mpr hmem)] at happlies
      cases happlies
    | some other =>
      obtain ⟨⟨hmem', happlies'⟩, hleast'⟩ := resolveEffectivePatchPolicy_eq_some hsecond
      rw [hperm.mem_iff] at hmem'
      have hrank : rank js other = rank js policy :=
        le_antisymm (hleast' policy (hperm.mem_iff.mpr hmem) happlies)
          (hleast other hmem' happlies')
      have hnodup : ((policies.filter (policyApplies scope)).map (rank js)).Nodup :=
        List.pairwise_map.mpr hdistinct
      rw [List.inj_on_of_nodup_map hnodup (List.mem_filter.mpr ⟨hmem', happlies'⟩)
        (List.mem_filter.mpr ⟨hmem, happlies⟩) hrank]

/-- An enabled policy for the organization. -/
def organizationPolicy (id : String) (priority : Number) : PatchPolicyForResolution where
  id := id
  scopeType := .organization
  scopeKey := "org"
  targetOsFamily := none
  priority := priority
  enabled := true
  isDefault := none
  updatedAt := none

theorem effective_policy_least_two :
    resolveEffectivePatchPolicy .bare [organizationPolicy "b" (.ofInt 20),
        organizationPolicy "a" (.ofInt 10)] ⟨"org", none, none, none, none⟩
      = resolveEffectivePatchPolicy .bare [organizationPolicy "a" (.ofInt 10),
        organizationPolicy "b" (.ofInt 20)] ⟨"org", none, none, none, none⟩ :=
  (effective_policy_least .bare _ _).2.2 (by decide +kernel) _ (List.Perm.swap _ _ _)

end Talos.Decision
