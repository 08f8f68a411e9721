import Mathlib.Data.List.Dedup
import Mathlib.Data.List.Sort
import Mathlib.Tactic.Common

/-!
Which optimizer rule a field gets, and which hyperparameters. A policy asks the
sub-policy of the layer first and its own patterns otherwise. A freeze puts
frozen patterns and layer rules over a base policy.
-/

namespace Dataflow.Optim

open List

inductive Kind
  | plain (default : String)
  | recipe

/-- A policy after its shorthands are resolved; `composed` is what `freeze` builds. -/
inductive Policy (Hyper : Type)
  | rules (kind : Kind) (overrides : List (String × String))
      (layerOverrides : List (List Int × Policy Hyper))
      (hyperOverrides : List (String × (Hyper → Hyper)))
  | composed (base : Policy Hyper) (overrides : List (String × String))
      (layerRules : List (List Int × Policy Hyper))

structure FreezeSpec where
  fields : List String := []
  layers : List Int := []
  pairs : List (String × Int) := []
  embed : Bool := false
  head : Bool := false

def adamwFragments : List String := ["norm", "embed", "head", "router", "idx"]

def Kind.rule (key : String) (shape : Option (List Nat)) : Kind → String
  | .plain default => default
  | .recipe =>
    if (shape.any fun dims => dims.length != 2 && dims.length != 3) || adamwFragments.any fun fragment =>
      key.toLower.toList.tails.any fragment.toList.isPrefixOf then "adamw" else "muon"

variable {Hyper Found : Type}

def forLayer (rules : List (List Int × Found)) (layer : Option Int) : Option Found :=
  layer.bind fun layer => (rules.find? fun rule => layer ∈ rule.1).map Prod.snd

section

variable (fnmatch : String → String → Bool)

def firstMatch (key : String) (rules : List (String × Found)) : Option Found :=
  (rules.find? fun rule => fnmatch key rule.1).map Prod.snd

variable (key : String) (layer : Option Int) (shape : Option (List Nat))

/-- `for_field` without a layer. -/
def Policy.own : Policy Hyper → String
  | rules kind overrides .. => (firstMatch fnmatch key overrides).getD (kind.rule key shape)
  | composed base overrides _ => (firstMatch fnmatch key overrides).getD base.own

def Policy.forField : Policy Hyper → String
  | rules kind overrides layered hyper =>
    ((forLayer layered layer).getD (rules kind overrides layered hyper)).own fnmatch key shape
  | composed base overrides layerRules =>
    match firstMatch fnmatch key overrides with
    | some name => name
    | none =>
      match forLayer layerRules layer with
      -- only a plain policy is asked with the layer
      | some (rules (.plain default) overrides layered hyper) =>
        ((forLayer layered layer).getD (rules (.plain default) overrides layered hyper)).own
          fnmatch key shape
      | some sub => sub.own fnmatch key shape
      | none => base.forField

def Policy.hypers : Policy Hyper → List (String × (Hyper → Hyper))
  | rules _ _ _ hyper => hyper
  | composed .. => []

def Policy.resolveHyper (base : Hyper) : Policy Hyper → Hyper
  | rules kind overrides layered hyper =>
    let policy := (forLayer layered layer).getD (rules kind overrides layered hyper)
    (firstMatch fnmatch key policy.hypers).getD id base
  | composed .. => base

end

def frozen (patterns : List String) : List (String × String) :=
  patterns.map fun pattern => (pattern, "frozen")

def sorted (layers : List Int) : List Int := layers.dedup.mergeSort

namespace FreezeSpec

def patterns (spec : FreezeSpec) : List String :=
  spec.fields ++ (if spec.embed then ["embed.*"] else []) ++ if spec.head then ["head.*"] else []

def pairsAt (spec : FreezeSpec) (layer : Int) : List String :=
  (spec.pairs.filter fun pair => pair.2 = layer).map Prod.fst

def layerRules (spec : FreezeSpec) (base : Policy Hyper) : List (List Int × Policy Hyper) :=
  (if sorted spec.layers = [] then [] else
    [(sorted spec.layers, .rules (.plain "frozen") [] [] [])]) ++
  (sorted (spec.pairs.map Prod.snd)).map fun layer =>
    ([layer], .composed base (frozen (spec.pairsAt layer)) [])

end FreezeSpec

def freeze (base : Policy Hyper) (spec : FreezeSpec) : Policy Hyper :=
  if (spec.layerRules base).isEmpty ∧ spec.patterns = [] then base
  else .composed base (frozen spec.patterns) (spec.layerRules base)

variable {fnmatch : String → String → Bool} {key : String} {layer : Option Int}
  {shape : Option (List Nat)} {base : Policy Hyper} {spec : FreezeSpec} {hyper : Hyper}

/-- The spec names this key, or this key at this layer. -/
def FreezeSpec.Names (fnmatch : String → String → Bool) (spec : FreezeSpec) (key : String)
    (layer : Option Int) : Prop :=
  (∃ pattern ∈ spec.patterns, fnmatch key pattern) ∨ ∃ place ∈ layer, place ∈ spec.layers ∨
    ∃ pair ∈ spec.pairs, pair.2 = place ∧ fnmatch key pair.1

/-- The layer a composed policy asks its base with: none where the spec has a pair. -/
def FreezeSpec.asked (spec : FreezeSpec) (layer : Option Int) : Option Int :=
  layer.bind fun place => if place ∈ spec.pairs.map Prod.snd then none else some place

def FreezeSpec.Empty (spec : FreezeSpec) : Prop :=
  spec.patterns = [] ∧ spec.layers = [] ∧ spec.pairs = []

/-- The claimed law of a freeze. -/
def Composes (fnmatch : String → String → Bool) (base : Policy Hyper) (spec : FreezeSpec)
    (key : String) (layer : Option Int) (shape : Option (List Nat)) (hyper : Hyper) : Prop :=
  ((freeze base spec).forField fnmatch key layer shape = "frozen" ↔ spec.Names fnmatch key layer) ∧
  (¬ spec.Names fnmatch key layer →
    (freeze base spec).forField fnmatch key layer shape = base.forField fnmatch key layer shape ∧
    (freeze base spec).resolveHyper fnmatch key layer hyper =
      base.resolveHyper fnmatch key layer hyper)

theorem mem_sorted {layers : List Int} {place : Int} : place ∈ sorted layers ↔ place ∈ layers := by
  rw [sorted, mem_mergeSort, mem_dedup]

theorem first_frozen (patterns : List String) : firstMatch fnmatch key (frozen patterns) =
    if ∃ pattern ∈ patterns, fnmatch key pattern then some "frozen" else none := by
  induction patterns with
  | nil => rfl
  | cons pattern rest ih =>
    rw [firstMatch, frozen, map_cons, find?_cons]
    cases hit : fnmatch key pattern with
    | true => simp [hit]
    | false => simpa [hit, firstMatch, frozen] using ih

theorem sorted_empty {layers : List Int} : sorted layers = [] ↔ layers = [] := by
  simp only [eq_nil_iff_forall_not_mem, mem_sorted]

theorem find_pairs (places : List Int) (place : Int) (sub : Int → Policy Hyper) :
    ((places.map fun other => ([other], sub other)).find? fun rule => place ∈ rule.1).map Prod.snd =
      if place ∈ places then some (sub place) else none := by
  induction places with
  | nil => rfl
  | cons other rest ih =>
    by_cases same : place = other
    · subst same
      simp
    · simpa [same] using ih

theorem layer_rules_at (place : Int) : forLayer (spec.layerRules base) (some place) =
    if place ∈ spec.layers then some (.rules (.plain "frozen") [] [] []) else
    if place ∈ spec.pairs.map Prod.snd then
      some (.composed base (frozen (spec.pairsAt place)) []) else none := by
  have pairs := find_pairs (sorted (spec.pairs.map Prod.snd)) place fun other =>
    Policy.composed base (frozen (spec.pairsAt other)) []
  simp only [mem_sorted] at pairs
  rw [← pairs, forLayer, Option.bind_some, FreezeSpec.layerRules]
  by_cases none : spec.layers = []
  · simp [sorted_empty, none]
  · simp only [sorted_empty, if_neg none, singleton_append, find?_cons, mem_sorted]
    by_cases inside : place ∈ spec.layers <;> simp [inside]

theorem freeze_empty (empty : spec.Empty) : freeze base spec = base := by
  obtain ⟨patterns, layers, pairs⟩ := empty
  simp [freeze, FreezeSpec.layerRules, patterns, layers, pairs, sorted]

theorem freeze_composed (given : ¬ spec.Empty) :
    freeze base spec = .composed base (frozen spec.patterns) (spec.layerRules base) := by
  refine if_neg fun empty => given ⟨empty.2, ?_⟩
  obtain ⟨layers, pairs⟩ := append_eq_nil_iff.mp (List.isEmpty_iff.mp empty.1)
  rw [map_eq_nil_iff, sorted_empty, map_eq_nil_iff] at pairs
  refine ⟨?_, pairs⟩
  by_contra some
  simp [sorted_empty, some] at layers

theorem forField_none : (policy : Policy Hyper) →
    policy.forField fnmatch key none shape = policy.own fnmatch key shape
  | .rules .. => rfl
  | .composed base overrides _ => by
    rw [Policy.forField, Policy.own, forField_none base]
    cases firstMatch fnmatch key overrides <;> rfl

theorem mem_pairsAt {place : Int} : (∃ pattern ∈ spec.pairsAt place, fnmatch key pattern) ↔
    ∃ pair ∈ spec.pairs, pair.2 = place ∧ fnmatch key pair.1 := by
  simp [FreezeSpec.pairsAt]

theorem freeze_named (named : spec.Names fnmatch key layer) :
    (freeze base spec).forField fnmatch key layer shape = "frozen" := by
  have given : ¬ spec.Empty := by
    rintro ⟨patterns, layers, pairs⟩
    simp [FreezeSpec.Names, patterns, layers, pairs] at named
  rw [freeze_composed given, Policy.forField, first_frozen]
  by_cases hit : ∃ pattern ∈ spec.patterns, fnmatch key pattern
  · rw [if_pos hit]
  obtain ⟨place, rfl, here⟩ := named.resolve_left hit
  rw [if_neg hit, layer_rules_at]
  by_cases inLayers : place ∈ spec.layers
  · rw [if_pos inLayers]
    rfl
  obtain ⟨pair, mem, rfl, same⟩ := here.resolve_left inLayers
  have paired := mem_pairsAt.mpr ⟨pair, mem, rfl, same⟩
  simp only [if_neg inLayers, if_pos (mem_map_of_mem mem), Policy.own, first_frozen,
    if_pos paired, Option.getD_some]

theorem freeze_unnamed (unnamed : ¬ spec.Names fnmatch key layer) :
    (freeze base spec).forField fnmatch key layer shape =
      base.forField fnmatch key (spec.asked layer) shape := by
  by_cases empty : spec.Empty
  · rw [freeze_empty empty, FreezeSpec.asked, empty.2.2]
    cases layer <;> rfl
  obtain ⟨missed, apart⟩ := not_or.mp unnamed
  rw [freeze_composed empty, Policy.forField, first_frozen, if_neg missed]
  cases layer with
  | none => rfl
  | some place =>
    have outside : place ∉ spec.layers := fun mem => apart ⟨place, rfl, .inl mem⟩
    have unpaired := mt mem_pairsAt.mp fun paired => apart ⟨place, rfl, .inr paired⟩
    rw [layer_rules_at, if_neg outside]
    rw [FreezeSpec.asked, Option.bind_some]
    by_cases paired : place ∈ spec.pairs.map Prod.snd
    · simp only [if_pos paired, forField_none, Policy.own, first_frozen, if_neg unpaired,
        Option.getD_none]
    · rw [if_neg paired, if_neg paired]

theorem freeze_hyper (given : ¬ spec.Empty) :
    (freeze base spec).resolveHyper fnmatch key layer hyper = hyper := by
  rw [freeze_composed given, Policy.resolveHyper]

/-- A freeze over a base policy follows the law exactly for what it names and, elsewhere, where
the base trains the field by the same rule with and without a layer that has a pair, and
where the base leaves the hyperparameters alone. -/
theorem freeze_composes_iff : Composes fnmatch base spec key layer shape hyper ↔
    spec.Names fnmatch key layer ∨ base.forField fnmatch key layer shape ≠ "frozen" ∧
      base.forField fnmatch key (spec.asked layer) shape =
        base.forField fnmatch key layer shape ∧
      (spec.Empty ∨ base.resolveHyper fnmatch key layer hyper = hyper) := by
  by_cases named : spec.Names fnmatch key layer
  · simp [Composes, named, freeze_named named]
  rw [Composes, freeze_unnamed named]
  by_cases empty : spec.Empty
  · simp [named, empty, freeze_empty empty]
    grind
  · simp [named, empty, freeze_hyper empty]
    grind

/-- A pair at layer 3 hides the base's policy for that layer from the other fields, and any
freeze hides the base's hyperparameters. Patterns without wildcards match only themselves. -/
theorem freeze_hides_base :
    (¬ Composes (· == ·) (.rules (.plain "adamw") [] [([3], .rules (.plain "sgd") [] [] [])] [])
      { pairs := [("wo", 3)] } "w1" (some 3) none ()) ∧
    ¬ Composes (· == ·) (.rules (.plain "adamw") [] [] [("w1", fun _ => 2)])
      { fields := ["wo"] } "w1" none none 1 := by
  constructor
  · intro law
    exact absurd (law.2 (by simp [FreezeSpec.Names, FreezeSpec.patterns])).1 (by decide +kernel)
  · intro law
    exact absurd (law.2 (by simp [FreezeSpec.Names, FreezeSpec.patterns])).2 (by decide +kernel)

end Dataflow.Optim
