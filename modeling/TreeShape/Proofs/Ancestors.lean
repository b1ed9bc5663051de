import Mathlib.Data.List.Perm.Subperm
import Mathlib.Logic.Relation
import TreeShape.Ancestry
import TreeShape.Proofs.Result

/-!
The ancestors of a name are the names that can be reached from it by going from a rule to one that
lists it. The bound on distances is never met before the search has seen every listing rule, so it
leaves nothing out, also where the listing goes in circles.
-/

namespace TreeShape

theorem mem_freshNames {seen names : List String} {name : String} :
    name ∈ freshNames seen names ↔ name ∈ names ∧ name ∉ seen := by
  induction names generalizing seen with
  | nil => simp [freshNames]
  | cons first rest ih =>
      simp only [freshNames, List.contains_iff_mem]
      by_cases hs : first ∈ seen
      · rw [if_pos hs, ih, List.mem_cons]
        constructor
        · exact fun h => ⟨.inr h.1, h.2⟩
        · rintro ⟨rfl | h, hn⟩
          · exact absurd hs hn
          · exact ⟨h, hn⟩
      · rw [if_neg hs, List.mem_cons, ih, List.mem_cons, List.mem_cons]
        by_cases he : name = first
        · simp [he, hs]
        · simp [he]

theorem nodup_freshNames (seen names : List String) : (freshNames seen names).Nodup := by
  induction names generalizing seen with
  | nil => exact .nil
  | cons first rest ih =>
      simp only [freshNames]
      split
      · exact ih seen
      · refine List.nodup_cons.mpr ⟨fun h => ?_, ih _⟩
        exact (mem_freshNames.mp h).2 List.mem_cons_self

namespace Ancestry

variable (ancestry : Ancestry)

/-- The rule `lister` lists `name` among its alternatives. -/
def Listed (name lister : String) : Prop :=
  lister ∈ ancestry.direct name

/-- All rules that list something. -/
def listers : List String :=
  ancestry.links.map (·.2)

variable {ancestry}

theorem mem_direct {name lister : String} :
    lister ∈ ancestry.direct name ↔ (name, lister) ∈ ancestry.links := by
  simp [direct]

theorem direct_subset_listers (name : String) : ancestry.direct name ⊆ ancestry.listers := by
  intro lister h
  exact List.mem_map.mpr ⟨(name, lister), mem_direct.mp h, rfl⟩

/-- Who lists whom, as it was declared. -/
theorem listed_iff_of_resolve {rules : List Rule} (h : resolve rules = .ok ancestry)
    {name lister : String} :
    ancestry.Listed name lister ↔
      ∃ rule ∈ rules, rule.name = lister ∧ name ∈ rule.alternatives := by
  simp only [resolve, check_bind_eq_ok_iff, pure_eq_ok_iff] at h
  rw [Listed, mem_direct, ← h.2]
  simp [and_comm]

theorem closureWithin_sound {bound : Nat} {seen frontier : List String} {name : String}
    (h : name ∈ ancestry.closureWithin bound seen frontier) :
    name ∈ seen ∨ ∃ start ∈ frontier, Relation.ReflTransGen ancestry.Listed start name := by
  induction bound generalizing seen frontier with
  | zero => exact .inl h
  | succ bound ih =>
      simp only [closureWithin] at h
      split at h
      · exact .inl h
      · next fresh _ =>
        obtain h | ⟨start, hs, reach⟩ := ih h
        · obtain h | h := List.mem_append.mp h
          · exact .inl h
          · exact .inr ⟨name, (mem_freshNames.mp h).1, .refl⟩
        · obtain ⟨before, hb, hs⟩ := List.mem_flatMap.mp hs
          exact .inr ⟨before, (mem_freshNames.mp hb).1, .head hs reach⟩

/-- The state of the search: no name is seen twice, and what the seen ones are listed by is seen
or comes next. -/
structure Explored (ancestry : Ancestry) (seen frontier : List String) : Prop where
  nodup : seen.Nodup
  seen_subset : seen ⊆ ancestry.listers
  frontier_subset : frontier ⊆ ancestry.listers
  closed : ∀ name ∈ seen, ∀ lister ∈ ancestry.direct name, lister ∈ seen ∨ lister ∈ frontier

namespace Explored

variable {seen frontier : List String}

theorem start (name : String) : Explored ancestry [] (ancestry.direct name) where
  nodup := .nil
  seen_subset := List.nil_subset _
  frontier_subset := direct_subset_listers name
  closed := nofun

theorem step (h : Explored ancestry seen frontier) :
    Explored ancestry (seen ++ freshNames seen frontier)
      ((freshNames seen frontier).flatMap ancestry.direct) where
  nodup := by
    refine List.nodup_append.mpr ⟨h.nodup, nodup_freshNames _ _, ?_⟩
    rintro name hs _ hf rfl
    exact (mem_freshNames.mp hf).2 hs
  seen_subset := by
    refine List.append_subset.mpr ⟨h.seen_subset, fun name hn => ?_⟩
    exact h.frontier_subset (mem_freshNames.mp hn).1
  frontier_subset lister hl := by
    obtain ⟨name, _, hl⟩ := List.mem_flatMap.mp hl
    exact direct_subset_listers name hl
  closed name hn lister hl := by
    obtain hn | hn := List.mem_append.mp hn
    · by_cases hs : lister ∈ seen
      · exact .inl (List.mem_append_left _ hs)
      · have hf := (h.closed name hn lister hl).resolve_left hs
        exact .inl (List.mem_append_right _ (mem_freshNames.mpr ⟨hf, hs⟩))
    · exact .inr (List.mem_flatMap.mpr ⟨name, hn, hl⟩)

/-- As many distinct listers are seen as there are links, so all of them are. -/
theorem listers_subset_seen (h : Explored ancestry seen frontier)
    (hb : ancestry.links.length ≤ seen.length) : ancestry.listers ⊆ seen := by
  have perm := (h.nodup.subperm h.seen_subset).perm_of_length_le (by simpa [listers] using hb)
  exact fun name hn => perm.mem_iff.mpr hn

/-- A search with nothing new before it has seen all it could reach. -/
theorem frontier_subset_seen (h : freshNames seen frontier = []) : frontier ⊆ seen := by
  intro name hn
  by_contra hs
  have := mem_freshNames.mpr ⟨hn, hs⟩
  rw [h] at this
  cases this

theorem nodup_closureWithin (h : Explored ancestry seen frontier) (bound : Nat) :
    (ancestry.closureWithin bound seen frontier).Nodup := by
  induction bound generalizing seen frontier with
  | zero => exact h.nodup
  | succ bound ih =>
      simp only [closureWithin]
      split
      · exact h.nodup
      · exact ih h.step

end Explored

/-- No ancestor is named twice. -/
theorem nodup_transitive (name : String) : (ancestry.transitive name).Nodup :=
  (Explored.start name).nodup_closureWithin _

theorem closureWithin_complete {bound : Nat} {seen frontier : List String}
    (h : Explored ancestry seen frontier) (hb : ancestry.links.length ≤ bound + seen.length) :
    (∀ name ∈ seen ++ frontier, name ∈ ancestry.closureWithin bound seen frontier) ∧
      ∀ name ∈ ancestry.closureWithin bound seen frontier,
        ancestry.direct name ⊆ ancestry.closureWithin bound seen frontier := by
  induction bound generalizing seen frontier with
  | zero =>
      have all := h.listers_subset_seen (by simpa using hb)
      refine ⟨fun name hn => ?_, fun name hn lister hl => all (direct_subset_listers name hl)⟩
      exact (List.mem_append.mp hn).elim id fun hf => all (h.frontier_subset hf)
  | succ bound ih =>
      simp only [closureWithin]
      split
      · next hnone =>
        have hsub := Explored.frontier_subset_seen hnone
        refine ⟨fun name hn => (List.mem_append.mp hn).elim id fun hf => hsub hf, ?_⟩
        exact fun name hn lister hl => (h.closed name hn lister hl).elim id fun hf => hsub hf
      · next hsome =>
        have hpos : 0 < (freshNames seen frontier).length :=
          List.length_pos_iff.mpr hsome
        obtain ⟨keeps, closed⟩ := ih h.step (by rw [List.length_append]; omega)
        refine ⟨fun name hn => keeps name (List.mem_append_left _ ?_), closed⟩
        by_cases hs : name ∈ seen
        · exact List.mem_append_left _ hs
        · have hf := (List.mem_append.mp hn).resolve_left hs
          exact List.mem_append_right _ (mem_freshNames.mpr ⟨hf, hs⟩)

theorem mem_transitive_iff {name lister : String} :
    lister ∈ ancestry.transitive name ↔ Relation.TransGen ancestry.Listed name lister := by
  constructor
  · intro h
    obtain h | ⟨start, hs, reach⟩ := closureWithin_sound h
    · cases h
    · exact .head' hs reach
  · intro h
    have start : Explored ancestry [] (ancestry.direct name) := Explored.start name
    obtain ⟨keeps, closed⟩ := closureWithin_complete start (Nat.le_refl _)
    induction h with
    | single hd => exact keeps _ hd
    | tail _ hd ih => exact closed _ ih hd

/-- Standing in for a capability is being listed by it, in any number of steps. -/
theorem implements_iff {rule capability : String} :
    ancestry.implements rule capability = true ↔
      Relation.ReflTransGen ancestry.Listed rule capability := by
  rw [implements, Bool.or_eq_true, beq_iff_eq, List.contains_iff_mem, mem_transitive_iff,
    Relation.reflTransGen_iff_eq_or_transGen, eq_comm]

end Ancestry
end TreeShape
