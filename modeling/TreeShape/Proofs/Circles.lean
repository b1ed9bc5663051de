import Mathlib.Data.List.Chain
import Mathlib.Data.List.Nodup
import Mathlib.Logic.Relation
import TreeShape.Proofs.Acyclic

/-!
The search for circles, when it finds one. The rules on the way to a rule hand on to one another,
so coming back to one of them closes a circle: the search fails exactly where handing on can go
round.
-/

namespace TreeShape

/-- Names that follow one another by `next`; the last is the first again, and no other is met
twice. -/
def IsCircle (next : String → List String) (circle : List String) : Prop :=
  ∃ name way, circle = name :: way ++ [name] ∧ (name :: way).Nodup ∧
    circle.IsChain fun name follower => follower ∈ next name

section

variable {next : String → List String} {path : List String} {name : String}

theorem isCircle_closeCycle (way : (name :: path).IsChain fun follower name => follower ∈ next name)
    (distinct : path.Nodup) (back : name ∈ path) : IsCircle next (closeCycle path name) := by
  obtain ⟨before, rest, rfl, off⟩ := List.eq_append_cons_of_mem back
  have run : (before ++ name :: rest).takeWhile (· != name) = before := by
    have ne : ∀ other ∈ before, (other != name) = true := by
      intro other ho
      exact bne_iff_ne.mpr fun he => off (he ▸ ho)
    simp [List.takeWhile_append_of_pos ne]
  -- The path leads backwards, so the circle is the part before `name`, the other way round.
  have circle : closeCycle (before ++ name :: rest) name = (name :: before ++ [name]).reverse := by
    simp [closeCycle, run]
  rw [circle]
  refine ⟨name, before.reverse, by simp, ?_, ?_⟩
  · refine List.nodup_cons.mpr ⟨fun h => off (List.mem_reverse.mp h), ?_⟩
    exact List.nodup_reverse.mpr (List.nodup_append.mp distinct).1
  · rw [List.isChain_reverse]
    exact way.prefix ⟨rest, by simp⟩

theorem isCircle_of_visit {bound : Nat} {done circle : List String}
    (way : (name :: path).IsChain fun follower name => follower ∈ next name)
    (distinct : path.Nodup) (h : visit next bound path done name = .error circle) :
    IsCircle next circle := by
  induction bound generalizing path done name with
  | zero => cases h
  | succ bound ih =>
      simp only [visit, List.contains_iff_mem] at h
      by_cases seen : name ∈ done
      · rw [if_pos seen] at h
        cases h
      · rw [if_neg seen] at h
        by_cases back : name ∈ path
        · rw [if_pos back] at h
          cases h
          exact isCircle_closeCycle way distinct back
        · rw [if_neg back] at h
          cases hf : (next name).foldlM (visit next bound (name :: path)) done with
          | ok left => rw [hf] at h; cases h
          | error found =>
              rw [hf] at h
              cases h
              obtain ⟨follower, hn, left, hv⟩ := exists_of_foldlM_eq_error hf
              exact ih (.cons_cons hn way) (List.nodup_cons.mpr ⟨back, distinct⟩) hv

theorem IsCircle.closed {circle : List String} (h : IsCircle next circle) :
    2 ≤ circle.length ∧ circle.head? = circle.getLast? ∧ circle.dropLast.Nodup := by
  obtain ⟨name, way, rfl, distinct, _⟩ := h
  refine ⟨by simp, ?_, ?_⟩
  · rw [List.getLast?_concat]
    rfl
  · rwa [List.dropLast_concat]

theorem IsCircle.transGen {circle : List String} (h : IsCircle next circle) :
    ∃ name, Relation.TransGen (fun name follower => follower ∈ next name) name name := by
  obtain ⟨name, way, rfl, _, chain⟩ := h
  refine ⟨name, ?_⟩
  cases way with
  | nil => exact .single (List.isChain_cons_cons.mp chain).1
  | cons follower way =>
      obtain ⟨first, chain⟩ := List.isChain_cons_cons.mp chain
      exact .head' first (List.relationReflTransGen_of_exists_isChain_cons _ chain (by simp))

end

namespace Schema

/-- A node may be handed on, as it is, from one rule to another. -/
inductive HandsOn (schema : Schema) : String → String → Prop
  | alternative {rule : Rule} {names : List String} {name : String} : rule ∈ schema.rules →
      rule.form = .alternatives names → name ∈ names → HandsOn schema rule.name name
  | delegate {rule : Rule} {body : Body} : rule ∈ schema.rules → rule.form = .leaf body →
      body.delegates = true → HandsOn schema rule.name body.root

variable {schema : Schema} {name next : String}

theorem handsOn_iff :
    schema.HandsOn name next ↔
      ∃ rule ∈ schema.rules, rule.name = name ∧ next ∈ rule.successors := by
  constructor
  · intro h
    cases h with
    | @alternative rule names _ hr form hn =>
        exact ⟨rule, hr, rfl, by simpa [Rule.successors, form] using hn⟩
    | @delegate rule body hr form delegates =>
        exact ⟨rule, hr, rfl, by simp [Rule.successors, form, delegates]⟩
  · intro ⟨rule, hr, hn, hs⟩
    subst hn
    cases form : rule.form with
    | alternatives names =>
        simp only [Rule.successors, form] at hs
        exact .alternative hr form hs
    | leaf body =>
        simp only [Rule.successors, form] at hs
        by_cases delegates : body.delegates = true
        · rw [if_pos delegates, List.mem_singleton] at hs
          exact hs ▸ .delegate hr form delegates
        · rw [if_neg delegates] at hs
          cases hs

theorem HandsOn.name_mem (h : schema.HandsOn name next) : name ∈ schema.names := by
  obtain ⟨rule, hr, rfl, _⟩ := handsOn_iff.mp h
  exact List.mem_map_of_mem hr

theorem HandsOn.mono {schema' : Schema} (sub : schema.rules ⊆ schema'.rules)
    (h : schema.HandsOn name next) : schema'.HandsOn name next := by
  cases h with
  | alternative hr form hn => exact .alternative (sub hr) form hn
  | delegate hr form delegates => exact .delegate (sub hr) form delegates

theorem rule?_eq_some_iff (distinct : schema.names.Nodup) {rule : Rule} :
    schema.rule? name = some rule ↔ rule ∈ schema.rules ∧ rule.name = name := by
  constructor
  · intro h
    exact ⟨List.mem_of_find?_eq_some h, by simpa using List.find?_some h⟩
  · intro ⟨hr, hn⟩
    cases found : schema.rule? name with
    | none => simpa [hn] using List.find?_eq_none.mp found rule hr
    | some other =>
        have same : other.name = rule.name := by simpa [hn] using List.find?_some found
        have ho := List.mem_of_find?_eq_some found
        rw [List.inj_on_of_nodup_map distinct ho hr same]

theorem mem_successors_iff (distinct : schema.names.Nodup) :
    next ∈ schema.successors name ↔ schema.HandsOn name next := by
  rw [handsOn_iff, successors]
  constructor
  · intro h
    cases found : schema.rule? name with
    | none => simp [found] at h
    | some rule =>
        obtain ⟨hr, hn⟩ := (rule?_eq_some_iff distinct).mp found
        exact ⟨rule, hr, hn, by simpa [found] using h⟩
  · intro ⟨rule, hr, hn, hs⟩
    simpa [(rule?_eq_some_iff distinct).mpr ⟨hr, hn⟩] using hs

theorem isCircle_of_checkCycles {fault : Fault} (h : schema.checkCycles = .error fault) :
    ∃ circle, fault = .cycle circle ∧ IsCircle schema.successors circle := by
  unfold checkCycles at h
  split at h
  · cases h
  · next circle hc =>
    cases h
    obtain ⟨name, _, done, hv⟩ := exists_of_foldlM_eq_error hc
    exact ⟨circle, rfl, isCircle_of_visit (.singleton name) .nil hv⟩

section

variable (distinct : schema.names.Nodup)
  (closed : ∀ {name next}, schema.HandsOn name next → next ∈ schema.names)
include distinct closed

theorem exists_rank_of_checkCycles (h : schema.checkCycles = .ok ()) :
    ∃ rank : String → Nat, (∀ name ∈ schema.names, rank name < schema.rules.length) ∧
      ∀ {name next}, schema.HandsOn name next → rank next < rank name := by
  obtain ⟨rank, hrank⟩ := schema.exists_rank
    (fun _ _ _ hn => closed ((mem_successors_iff distinct).mp hn)) h
  refine ⟨rank, fun name hn => (hrank name hn).1, fun {name next} h => ?_⟩
  exact (hrank name h.name_mem).2 next ((mem_successors_iff distinct).mpr h)

/-- The search succeeds where no node can be handed on in a circle. -/
theorem checkCycles_eq_ok_iff :
    schema.checkCycles = .ok () ↔ ∀ name, ¬ Relation.TransGen schema.HandsOn name name := by
  constructor
  · intro h name circle
    obtain ⟨rank, _, step⟩ := exists_rank_of_checkCycles distinct closed h
    have down : ∀ {a b}, Relation.TransGen schema.HandsOn a b → rank b < rank a := by
      intro a b reach
      induction reach with
      | single h => exact step h
      | tail _ h ih => exact Nat.lt_trans (step h) ih
    exact Nat.lt_irrefl _ (down circle)
  · intro acyclic
    cases h : schema.checkCycles with
    | ok _ => rfl
    | error fault =>
        obtain ⟨circle, _, hc⟩ := isCircle_of_checkCycles h
        obtain ⟨name, reach⟩ := hc.transGen
        exact absurd (reach.lift id fun _ _ => (mem_successors_iff distinct).mp) (acyclic name)

end

end Schema
end TreeShape
