import Dataflow.Graph.Nesting
import Dataflow.Proofs.Graph.Ancestors
import Dataflow.Proofs.Validation.Structure

/-!
# Clock domains around a node

Which clock domains are found around a node by following parents.

**Search.**  A search for a domain goes up the line of the node and takes the first clock domain
(`Line.enclosingDomain_eq_find?`).

**Chains.**  Where no node is above itself, the chain of a domain that is not cut off is the chain
of the domain around it, and the domain itself (`domainChain_eq_append`).  So the two walks together
find all clock domains of a line (`Line.climbDomains_eq_reverse`).

**Turns.**  On any graph the loop that collects a chain ends (`climbTurn_wellFounded`), and no turn
puts a domain into the chain twice (`ClimbTurn.nodup`).

**Result.**  `domain_lookup_exact`: what is found around a node with fewer than 4096 ancestors, and
that the walks end on every graph.
-/

namespace Dataflow
namespace Graph

section Defs

/-- Whether a number belongs to a clock domain. -/
def isDomain (g : Graph) (id : NodeId) : Bool := (g.kindOf id).any NodeKind.isDomain

/-- The clock domain `d` is the nearest one around `id`. -/
structure Encloses (g : Graph) (d id : NodeId) : Prop where
  above : Relation.TransGen g.Parent id d
  isDomain : g.isDomain d = true
  nearest : ∀ a, Relation.TransGen g.Parent id a → Relation.TransGen g.Parent a d →
    g.isDomain a = false

/-- One turn of the loop that collects a chain: the domain that comes next is put before those in
the chain, unless the chain is full or holds it already. -/
inductive ClimbTurn (g : Graph) :
    List NodeId × Option NodeId → List NodeId × Option NodeId → Prop
  | up {chain : List NodeId} {d : NodeId} :
      chain.length < maxNesting →
      d ∉ chain →
      ClimbTurn g (chain, some d) (d :: chain, g.enclosingDomain d)

end Defs

section Search

variable {g : Graph} {id : NodeId} {line : List NodeId}

theorem nearestDomain_none (g : Graph) (steps : Nat) : g.nearestDomain steps none = none := by
  cases steps <;> rfl

/-- A search with enough steps takes the first clock domain. -/
theorem Line.nearestDomain_eq_find? (h : g.Line id line) {steps : Nat}
    (hsteps : line.length < steps) :
    g.nearestDomain steps (some id) = (id :: line).find? g.isDomain := by
  induction h generalizing steps with
  | @top id htop =>
      obtain ⟨steps, rfl⟩ := Nat.exists_eq_add_one_of_ne_zero (Nat.ne_of_gt hsteps)
      cases hn : g.node? id with
      | none => simp [nearestDomain, isDomain, kindOf, hn]
      | some n =>
          have hparent := (parent_eq_none_iff hn).mpr htop
          by_cases hdomain : n.kind.isDomain = true
          · simp [nearestDomain, isDomain, kindOf, hn, hdomain]
          · simp [nearestDomain, isDomain, kindOf, hn, hdomain, hparent, nearestDomain_none]
  | @inside id p line hp _ ih =>
      obtain ⟨steps, rfl⟩ := Nat.exists_eq_add_one_of_ne_zero (Nat.ne_zero_of_lt hsteps)
      obtain ⟨n, hn, hparent⟩ := hp
      have hrest := ih (Nat.lt_of_succ_lt_succ hsteps)
      by_cases hdomain : n.kind.isDomain = true
      · simp [nearestDomain, isDomain, kindOf, hn, hdomain]
      · rw [List.find?_cons_of_neg (by simp [isDomain, kindOf, hn, hdomain]), ← hrest]
        simp [nearestDomain, hn, hdomain, hparent]

/-- The domain around a node is the first clock domain of its line. -/
theorem Line.enclosingDomain_eq_find? (h : g.Line id line) (hline : line.length ≤ maxNesting) :
    g.enclosingDomain id = line.find? g.isDomain := by
  cases h with
  | top htop =>
      rw [enclosingDomain, List.find?_nil]
      cases hn : g.node? id with
      | none => rfl
      | some n =>
          have hparent := (parent_eq_none_iff hn).mpr htop
          simp [hparent, nearestDomain_none]
  | inside hp hrest =>
      rw [← hrest.nearestDomain_eq_find? hline]
      obtain ⟨n, hn, hparent⟩ := hp
      simp [enclosingDomain, hn, hparent]

end Search

section Chains

variable {g : Graph}

/-- A search for a domain goes up. -/
theorem reaches_of_nearestDomain :
    ∀ {steps : Nat} {id d : NodeId}, g.nearestDomain steps (some id) = some d →
      Relation.ReflTransGen g.Parent id d
  | 0, _, _, h => by
      cases h
  | steps + 1, id, d, h => by
      simp only [nearestDomain] at h
      split at h
      · cases h
      · rename_i n hn
        split at h
        · cases h
          exact .refl
        · cases hparent : n.parent with
          | none =>
              rw [hparent] at h
              cases steps <;> cases h
          | some p =>
              rw [hparent] at h
              exact .head ⟨n, hn, hparent⟩ (reaches_of_nearestDomain h)

/-- The domain around a node is above it. -/
theorem above_of_enclosingDomain {id d : NodeId} (h : g.enclosingDomain id = some d) :
    Relation.TransGen g.Parent id d := by
  obtain ⟨n, hn, h⟩ := Option.bind_eq_some_iff.mp h
  cases hparent : n.parent with
  | none =>
      rw [hparent] at h
      cases h
  | some p =>
      rw [hparent] at h
      exact .head' ⟨n, hn, hparent⟩ (reaches_of_nearestDomain h)

theorem above_of_mem_singleton {d : NodeId} :
    ∀ a ∈ [d], ∀ e ∈ g.enclosingDomain d, Relation.TransGen g.Parent a e := by
  intro a ha e he
  rw [List.mem_singleton.mp ha]
  exact above_of_enclosingDomain he

variable (hacyclic : ∀ id, ¬ Relation.TransGen g.Parent id id)

include hacyclic

/-- A climb puts the domains that it meets before those that lie below its start. -/
theorem climbDomains_eq_append :
    ∀ (steps : Nat) {chain : List NodeId} {start : Option NodeId},
      (∀ a ∈ chain, ∀ d ∈ start, Relation.TransGen g.Parent a d) →
        g.climbDomains steps chain start = g.climbDomains steps [] start ++ chain
  | 0, _, _, _ => rfl
  | _ + 1, _, none, _ => rfl
  | steps + 1, chain, some d, hbelow => by
      have hfresh : d ∉ chain := fun hd => hacyclic d (hbelow d hd d rfl)
      have hall : ∀ a ∈ d :: chain, ∀ e ∈ g.enclosingDomain d, Relation.TransGen g.Parent a e := by
        intro a ha e he
        rcases List.mem_cons.mp ha with rfl | ha
        · exact above_of_enclosingDomain he
        · exact (hbelow a ha d rfl).trans (above_of_enclosingDomain he)
      simp only [climbDomains, if_neg hfresh, List.not_mem_nil, if_false]
      rw [climbDomains_eq_append steps hall, climbDomains_eq_append steps above_of_mem_singleton,
        List.append_assoc]
      rfl

theorem climbDomains_succ (steps : Nat) (d : NodeId) :
    g.climbDomains (steps + 1) [] (some d) =
      g.climbDomains steps [] (g.enclosingDomain d) ++ [d] := by
  simp only [climbDomains, List.not_mem_nil, if_false]
  exact climbDomains_eq_append hacyclic steps above_of_mem_singleton

/-- A climb that ended in time meets no more when it has more steps. -/
theorem climbDomains_stable :
    ∀ {steps : Nat} {start : Option NodeId}, (g.climbDomains steps [] start).length < steps →
      g.climbDomains (steps + 1) [] start = g.climbDomains steps [] start
  | 0, _, h => absurd h (Nat.not_lt_zero _)
  | _ + 1, none, _ => rfl
  | steps + 1, some d, h => by
      rw [climbDomains_succ hacyclic, List.length_append, List.length_singleton] at h
      rw [climbDomains_succ hacyclic, climbDomains_succ hacyclic,
        climbDomains_stable (Nat.lt_of_succ_lt_succ h)]

/-- The chain of a domain that is not cut off is the chain of the domain around it, and the
domain itself. -/
theorem domainChain_eq_append {d : NodeId} (h : (g.domainChain (some d)).length < maxNesting) :
    g.domainChain (some d) = g.domainChain (g.enclosingDomain d) ++ [d] := by
  obtain ⟨steps, hsteps⟩ : ∃ steps, maxNesting = steps + 1 := ⟨4095, rfl⟩
  simp only [domainChain, hsteps] at h ⊢
  rw [climbDomains_succ hacyclic] at h ⊢
  rw [List.length_append, List.length_singleton] at h
  rw [climbDomains_stable hacyclic (Nat.lt_of_succ_lt_succ h)]

/-- The chain of a domain around another is the outer part of its chain. -/
theorem domainChain_outer {d e : NodeId} (h : (g.domainChain (some d)).length < maxNesting)
    (he : e ∈ g.domainChain (g.enclosingDomain d)) :
    g.domainChain (some e) <+: g.domainChain (g.enclosingDomain d) := by
  induction hlength : (g.domainChain (some d)).length using Nat.strongRecOn generalizing d with
  | ind length ih =>
      have happend := domainChain_eq_append hacyclic h
      cases hf : g.enclosingDomain d with
      | none =>
          rw [hf] at he
          cases he
      | some f =>
          rw [hf] at he happend
          have hshorter : (g.domainChain (some f)).length + 1 = length := by
            rw [← hlength, happend, List.length_append, List.length_singleton]
          have hshort : (g.domainChain (some f)).length < maxNesting := by
            omega
          rw [domainChain_eq_append hacyclic hshort] at he ⊢
          rcases List.mem_append.mp he with he | he
          · exact (ih _ (by omega) hshort he rfl).trans (List.prefix_append _ _)
          · rw [List.mem_singleton.mp he]
            exact ⟨[], by rw [List.append_nil, domainChain_eq_append hacyclic hshort]⟩

/-- Every other domain of a chain has a shorter chain, the outer part of the chain. -/
theorem domainChain_outer_of_ne {d e : NodeId} (h : (g.domainChain (some d)).length < maxNesting)
    (he : e ∈ g.domainChain (some d)) (hne : e ≠ d) :
    g.domainChain (some e) <+: g.domainChain (g.enclosingDomain d) ∧
      (g.domainChain (some e)).length < maxNesting := by
  have happend := domainChain_eq_append hacyclic h
  rw [happend] at he
  have houter := domainChain_outer hacyclic h
    ((List.mem_append.mp he).resolve_right (by simpa using hne))
  refine ⟨houter, ?_⟩
  have hle := houter.length_le
  rw [happend, List.length_append] at h
  omega

end Chains

section Lookup

variable {g : Graph} {id : NodeId} {line : List NodeId}

/-- In a line, what lies between the node and a container comes before the container. -/
theorem Line.mem_before_iff (hacyclic : ∀ id, ¬ Relation.TransGen g.Parent id id) {d a : NodeId}
    {before after : List NodeId} (h : g.Line id (before ++ d :: after)) :
    a ∈ before ↔ Relation.TransGen g.Parent id a ∧ Relation.TransGen g.Parent a d := by
  obtain ⟨-, hafter, hcross⟩ := List.pairwise_append.mp h.ordered
  rw [← h.mem_iff]
  constructor
  · intro ha
    exact ⟨List.mem_append_left _ ha, hcross a ha d List.mem_cons_self⟩
  · rintro ⟨ha, hbelow⟩
    rcases List.mem_append.mp ha with ha | ha
    · exact ha
    · rcases List.mem_cons.mp ha with rfl | ha
      · exact absurd hbelow (hacyclic a)
      · exact absurd (hbelow.trans ((List.pairwise_cons.mp hafter).1 a ha)) (hacyclic a)

/-- The first clock domain of a line is the nearest one. -/
theorem Line.find?_eq_some_iff (hacyclic : ∀ id, ¬ Relation.TransGen g.Parent id id)
    (h : g.Line id line) {d : NodeId} : line.find? g.isDomain = some d ↔ g.Encloses d id := by
  rw [List.find?_eq_some_iff_append]
  constructor
  · rintro ⟨hdomain, before, after, rfl, hbefore⟩
    refine ⟨h.mem_iff.mp (by simp), hdomain, fun a habove hbelow => ?_⟩
    simpa using hbefore a ((h.mem_before_iff hacyclic).mpr ⟨habove, hbelow⟩)
  · rintro ⟨habove, hdomain, hnearest⟩
    obtain ⟨before, after, rfl⟩ := List.append_of_mem (h.mem_iff.mpr habove)
    refine ⟨hdomain, before, after, rfl, fun a ha => ?_⟩
    obtain ⟨habove, hbelow⟩ := (h.mem_before_iff hacyclic).mp ha
    simp [hnearest a habove hbelow]

/-- A chain that is not cut off holds the clock domains of the line, outermost first. -/
theorem Line.climbDomains_eq_reverse (hacyclic : ∀ id, ¬ Relation.TransGen g.Parent id id) :
    ∀ {steps : Nat} {d : NodeId} {line : List NodeId}, g.Line d line → g.isDomain d = true →
      line.length < steps → steps ≤ maxNesting →
        g.climbDomains steps [] (some d) = ((d :: line).filter g.isDomain).reverse
  | 0, _, _, _, _, hsteps, _ => absurd hsteps (Nat.not_lt_zero _)
  | steps + 1, d, line, h, hdomain, hsteps, hmax => by
      rw [climbDomains_succ hacyclic, h.enclosingDomain_eq_find? (by omega),
        List.filter_cons_of_pos hdomain, List.reverse_cons]
      congr 1
      cases hfind : line.find? g.isDomain with
      | none =>
          rw [List.find?_eq_none] at hfind
          rw [List.filter_eq_nil_iff.mpr hfind]
          cases steps <;> rfl
      | some e =>
          obtain ⟨he, before, after, rfl, hbefore⟩ := List.find?_eq_some_iff_append.mp hfind
          have hnone : before.filter g.isDomain = [] :=
            List.filter_eq_nil_iff.mpr fun a ha => by simpa using hbefore a ha
          rw [List.filter_append, hnone, List.nil_append]
          refine Line.climbDomains_eq_reverse hacyclic h.rest he ?_ (by omega)
          simp only [List.length_append, List.length_cons] at hsteps
          omega

end Lookup

section Turns

variable {g : Graph} {x y : List NodeId × Option NodeId}

theorem ClimbTurn.left_lt (h : g.ClimbTurn x y) :
    maxNesting - y.1.length < maxNesting - x.1.length := by
  cases h with
  | up hroom _ =>
      simp only [List.length_cons]
      omega

/-- The loop that collects a chain ends on every graph. -/
theorem climbTurn_wellFounded (g : Graph) : WellFounded (flip g.ClimbTurn) :=
  Subrelation.wf (fun h => ClimbTurn.left_lt h)
    (measure fun x : List NodeId × Option NodeId => maxNesting - x.1.length).wf

/-- A turn puts no domain into a chain twice, and does not overfill it. -/
theorem ClimbTurn.nodup (h : g.ClimbTurn x y) (hx : x.1.Nodup ∧ x.1.length ≤ maxNesting) :
    y.1.Nodup ∧ y.1.length ≤ maxNesting := by
  cases h with
  | up hroom hfresh => exact ⟨List.nodup_cons.mpr ⟨hfresh, hx.1⟩, hroom⟩

theorem nodup_of_turns (h : Relation.ReflTransGen g.ClimbTurn x y)
    (hx : x.1.Nodup ∧ x.1.length ≤ maxNesting) : y.1.Nodup ∧ y.1.length ≤ maxNesting := by
  induction h with
  | refl => exact hx
  | tail _ hturn ih => exact hturn.nodup ih

/-- Climbing takes turns until there is none left. -/
theorem turns_climbDomains :
    ∀ (steps : Nat) (chain : List NodeId) (start : Option NodeId),
      chain.length + steps = maxNesting →
      ∃ next, Relation.ReflTransGen g.ClimbTurn (chain, start)
        (g.climbDomains steps chain start, next) ∧
        ∀ y, ¬ g.ClimbTurn (g.climbDomains steps chain start, next) y
  | 0, chain, start, hsteps => by
      refine ⟨start, .refl, fun y hturn => ?_⟩
      cases hturn with
      | up hroom _ => exact absurd hsteps (Nat.ne_of_lt hroom)
  | steps + 1, chain, none, _ => ⟨none, .refl, fun y hturn => by cases hturn⟩
  | steps + 1, chain, some d, hsteps => by
      rw [climbDomains]
      split
      · rename_i hmet
        refine ⟨some d, .refl, fun y hturn => ?_⟩
        cases hturn with
        | up _ hfresh => exact hfresh hmet
      · rename_i hfresh
        obtain ⟨next, hturns, hend⟩ := turns_climbDomains steps (d :: chain) (g.enclosingDomain d)
          (by rw [List.length_cons]; omega)
        exact ⟨next, .head (.up (by omega) hfresh) hturns, hend⟩

end Turns

section Whole

/-- Looking for clock domains finds the right ones where containers are not nested too deeply, and
ends on every graph.

* Where no node is above itself, for a node with fewer than 4096 ancestors: the domain around the
  node is the nearest of its ancestors that is a clock domain, and there is none exactly if none
  of them is one.  The chain of a clock domain holds itself and the clock domains above it,
  outermost first.
* On a graph of any kind the loop that collects a chain ends, with the chain as its result.  The
  chain holds no domain twice and at most 4096: a longer one is cut off. -/
theorem domain_lookup_exact (g : Graph) :
    ((∀ id, ¬ Relation.TransGen g.Parent id id) →
      ∀ id, {a | Relation.TransGen g.Parent id a}.encard < 4096 →
        (∀ d, g.enclosingDomain id = some d ↔ g.Encloses d id) ∧
        (g.enclosingDomain id = none ↔
          ∀ a, Relation.TransGen g.Parent id a → g.isDomain a = false) ∧
        (g.isDomain id = true →
          (∀ d, d ∈ g.domainChain (some id) ↔
            d = id ∨ Relation.TransGen g.Parent id d ∧ g.isDomain d = true) ∧
          (g.domainChain (some id)).Pairwise fun outer inner =>
            Relation.TransGen g.Parent inner outer)) ∧
    WellFounded (flip g.ClimbTurn) ∧
    ∀ domain,
      (∃ next, Relation.ReflTransGen g.ClimbTurn ([], domain) (g.domainChain domain, next) ∧
        ∀ y, ¬ g.ClimbTurn (g.domainChain domain, next) y) ∧
      (g.domainChain domain).Nodup ∧ (g.domainChain domain).length ≤ 4096 := by
  refine ⟨fun hacyclic id hfew => ?_, g.climbTurn_wellFounded, fun domain => ?_⟩
  · obtain ⟨line, hline⟩ := exists_line hacyclic id
    have hshort : line.length < maxNesting := by
      rw [hline.encard_eq hacyclic] at hfew
      exact_mod_cast hfew
    have hfind := hline.enclosingDomain_eq_find? (Nat.le_of_lt hshort)
    refine ⟨fun d => ?_, ?_, fun hdomain => ?_⟩
    · rw [hfind, hline.find?_eq_some_iff hacyclic]
    · simp only [hfind, List.find?_eq_none, hline.mem_iff, Bool.not_eq_true]
    · have hchain : g.domainChain (some id) = ((id :: line).filter g.isDomain).reverse :=
        Line.climbDomains_eq_reverse hacyclic hline hdomain hshort (Nat.le_refl _)
      rw [hchain]
      constructor
      · intro d
        rw [List.mem_reverse, List.filter_cons_of_pos hdomain, List.mem_cons, List.mem_filter,
          hline.mem_iff]
      · rw [List.pairwise_reverse]
        refine List.Pairwise.filter _ (.cons ?_ hline.ordered)
        exact fun a ha => hline.mem_iff.mp ha
  · obtain ⟨next, hturns, hend⟩ := turns_climbDomains maxNesting [] domain (Nat.zero_add _)
    exact ⟨⟨next, hturns, hend⟩, nodup_of_turns hturns ⟨List.nodup_nil, Nat.zero_le _⟩⟩

/-- The subsystem is passed over: the inner domain is around the leaf, and the outer one around
the inner one. -/
theorem domain_lookup_exact_layered :
    (∀ id, ¬ Relation.TransGen layered.Parent id id) ∧
    {a | Relation.TransGen layered.Parent ⟨3⟩ a}.encard < 4096 ∧
    {a | Relation.TransGen layered.Parent ⟨2⟩ a}.encard < 4096 ∧
    layered.Encloses ⟨2⟩ ⟨3⟩ ∧ layered.Encloses ⟨0⟩ ⟨2⟩ ∧
    layered.domainChain (some ⟨2⟩) = [⟨0⟩, ⟨2⟩] ∧
    (∀ d, d ∈ layered.domainChain (some ⟨2⟩) ↔
      d = ⟨2⟩ ∨ Relation.TransGen layered.Parent ⟨2⟩ d ∧ layered.isDomain d = true) := by
  have hacyclic : ∀ id, ¬ Relation.TransGen layered.Parent id id :=
    (wellFormed_of_isSound (by decide)).acyclic
  have hinner : layered.Line ⟨2⟩ [⟨1⟩, ⟨0⟩] := by
    cases layered_line with
    | inside _ hline => exact hline
  have hfew : {a | Relation.TransGen layered.Parent ⟨3⟩ a}.encard < 4096 := by
    rw [layered_line.encard_eq hacyclic]
    decide
  have hfewer : {a | Relation.TransGen layered.Parent ⟨2⟩ a}.encard < 4096 := by
    rw [hinner.encard_eq hacyclic]
    decide
  obtain ⟨hlookup, -, -⟩ := domain_lookup_exact layered
  refine ⟨hacyclic, hfew, hfewer, ((hlookup hacyclic _ hfew).1 _).mp (by decide),
    ((hlookup hacyclic _ hfewer).1 _).mp (by decide), by decide, ?_⟩
  exact ((hlookup hacyclic _ hfewer).2.2 (by decide)).1

end Whole

end Graph
end Dataflow
