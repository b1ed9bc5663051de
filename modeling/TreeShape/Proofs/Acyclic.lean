import TreeShape.Proofs.Result
import TreeShape.Schema.Cycle

/-!
The search for circles, when it finds none. The rules it has left form a list in which every rule
stands before the rules it hands on to, so the places in that list rank the rules: handing on always
goes down, and no rank reaches the number of rules.
-/

namespace TreeShape

/-- Distinct names, each before everything that follows it by `next`. -/
inductive Settled (next : String → List String) : List String → Prop
  | nil : Settled next []
  | cons {name : String} {rest : List String} :
      name ∉ rest → (∀ follower ∈ next name, follower ∈ rest) → Settled next rest →
      Settled next (name :: rest)

namespace Settled

variable {next : String → List String} {done : List String}

theorem nodup (h : Settled next done) : done.Nodup := by
  induction h with
  | nil => exact .nil
  | cons fresh _ _ ih => exact List.nodup_cons.mpr ⟨fresh, ih⟩

theorem mem_of_mem_next (h : Settled next done) {name follower : String} (hn : name ∈ done)
    (hf : follower ∈ next name) : follower ∈ done := by
  induction h with
  | nil => cases hn
  | cons _ followers _ ih =>
      obtain rfl | hn := List.mem_cons.mp hn
      · exact List.mem_cons_of_mem _ (followers follower hf)
      · exact List.mem_cons_of_mem _ (ih hn)

theorem idxOf_lt (h : Settled next done) {name follower : String} (hn : name ∈ done)
    (hf : follower ∈ next name) : done.idxOf name < done.idxOf follower := by
  induction h with
  | nil => cases hn
  | @cons first rest fresh followers settled ih =>
      obtain rfl | hn := List.mem_cons.mp hn
      · have hne : name ≠ follower := fun e => fresh (e ▸ followers follower hf)
        rw [List.idxOf_cons_self, List.idxOf_cons_ne _ hne]
        exact Nat.succ_pos _
      · have hne : first ≠ name := fun e => fresh (e ▸ hn)
        have hne' : first ≠ follower := fun e => fresh (e ▸ settled.mem_of_mem_next hn hf)
        rw [List.idxOf_cons_ne _ hne, List.idxOf_cons_ne _ hne']
        exact Nat.succ_lt_succ (ih hn)

end Settled

/-- What a part of the search has done when it started with `done`, below the rules on `path`, and
ended with `left`. -/
structure Search (next : String → List String) (known path done left : List String) : Prop where
  settled : Settled next left
  known : left ⊆ known
  keeps : done ⊆ left
  fresh : ∀ name ∈ left, name ∈ done ∨ name ∉ path

namespace Search

variable {next : String → List String} {known path done left : List String}

theorem trans {left' : List String} (first : Search next known path done left)
    (second : Search next known path left left') : Search next known path done left' where
  settled := second.settled
  known := second.known
  keeps := List.Subset.trans first.keeps second.keeps
  fresh name h := by
    obtain h | h := second.fresh name h
    · exact first.fresh name h
    · exact .inr h

/-- Once everything after `name` has been left, `name` may be left as well. -/
theorem leave {name : String} (search : Search next known (name :: path) done left)
    (hn : name ∈ known) (hd : name ∉ done) (hp : name ∉ path)
    (followers : ∀ follower ∈ next name, follower ∈ left) :
    Search next known path done (name :: left) where
  settled := by
    refine .cons (fun h => ?_) followers search.settled
    obtain h | h := search.fresh name h
    · exact hd h
    · exact h List.mem_cons_self
  known := List.cons_subset.mpr ⟨hn, search.known⟩
  keeps := List.subset_cons_of_subset name search.keeps
  fresh other h := by
    obtain rfl | h := List.mem_cons.mp h
    · exact .inr hp
    · exact (search.fresh other h).imp_right fun h h' => h (List.mem_cons_of_mem _ h')

end Search

section

variable {next : String → List String} {known : List String}

/-- One part after the other. -/
private theorem search_foldlM {path : List String}
    {step : List String → String → Except (List String) (List String)} {names : List String}
    (hstep : ∀ name ∈ names, ∀ {done left}, Settled next done → done ⊆ known →
      step done name = .ok left → Search next known path done left ∧ name ∈ left)
    {done left : List String} (settled : Settled next done) (hk : done ⊆ known)
    (h : names.foldlM step done = .ok left) :
    Search next known path done left ∧ ∀ name ∈ names, name ∈ left := by
  induction names generalizing done with
  | nil =>
      cases pure_eq_ok_iff.mp h
      exact ⟨⟨settled, hk, List.Subset.refl _, fun _ => .inl⟩, nofun⟩
  | cons name names ih =>
      rw [List.foldlM_cons, bind_eq_ok_iff] at h
      obtain ⟨middle, hm, h⟩ := h
      obtain ⟨first, hn⟩ := hstep name List.mem_cons_self settled hk hm
      obtain ⟨rest, hns⟩ := ih (fun other ho => hstep other (List.mem_cons_of_mem _ ho))
        first.settled first.known h
      exact ⟨first.trans rest, List.forall_mem_cons.mpr ⟨rest.keeps hn, hns⟩⟩

/-- The bound is never used up: the rules on the path are distinct, so there are no more of them
than rules. -/
theorem visit_search (closed : ∀ name ∈ known, next name ⊆ known) {bound : Nat}
    {path done left : List String} {name : String} (hn : name ∈ known) (hp : path ⊆ known)
    (distinct : path.Nodup) (hb : known.length < bound + path.length)
    (settled : Settled next done) (hk : done ⊆ known)
    (h : visit next bound path done name = .ok left) :
    Search next known path done left ∧ name ∈ left := by
  induction bound generalizing path done left name with
  | zero =>
      have := distinct.length_le_of_subset hp
      omega
  | succ bound ih =>
      simp only [visit, List.contains_iff_mem] at h
      split at h
      · next seen =>
        cases h
        exact ⟨⟨settled, hk, List.Subset.refl _, fun _ => .inl⟩, seen⟩
      · next unseen =>
        split at h
        · cases h
        · next off =>
          rw [bind_eq_ok_iff] at h
          obtain ⟨middle, hm, h⟩ := h
          cases pure_eq_ok_iff.mp h
          -- The followers are visited below `name`, which is on the path for them.
          have below : ∀ follower ∈ next name, ∀ {done left}, Settled next done → done ⊆ known →
              visit next bound (name :: path) done follower = .ok left →
              Search next known (name :: path) done left ∧ follower ∈ left := by
            intro follower hf done left settled hk h
            exact ih (closed name hn hf) (List.cons_subset.mpr ⟨hn, hp⟩)
              (List.nodup_cons.mpr ⟨off, distinct⟩) (by simp only [List.length_cons]; omega)
              settled hk h
          obtain ⟨search, followers⟩ := search_foldlM below settled hk hm
          exact ⟨search.leave hn unseen off followers, List.mem_cons_self⟩

end

/-- In a schema without circles handing on goes down in rank. -/
theorem Schema.exists_rank (schema : Schema)
    (closed : ∀ name ∈ schema.names, schema.successors name ⊆ schema.names)
    (h : schema.checkCycles = .ok ()) :
    ∃ rank : String → Nat, ∀ name ∈ schema.names, rank name < schema.rules.length ∧
      ∀ follower ∈ schema.successors name, rank follower < rank name := by
  unfold checkCycles at h
  split at h
  · next left hleft =>
    have root : ∀ name ∈ schema.names, ∀ {done left}, Settled schema.successors done →
        done ⊆ schema.names →
        visit schema.successors (schema.rules.length + 1) [] done name = .ok left →
        Search schema.successors schema.names [] done left ∧ name ∈ left := by
      intro name hn done left settled hk h
      exact visit_search closed hn (List.nil_subset _) .nil (by simp [names]) settled hk h
    obtain ⟨search, all⟩ := search_foldlM root .nil (List.nil_subset _) hleft
    have hlen : left.length ≤ schema.rules.length := by
      simpa [names] using search.settled.nodup.length_le_of_subset search.known
    refine ⟨fun name => left.length - 1 - left.idxOf name, fun name hn => ?_⟩
    beta_reduce
    have hidx := List.idxOf_lt_length_iff.mpr (all name hn)
    refine ⟨by omega, fun follower hf => ?_⟩
    have hlt := search.settled.idxOf_lt (all name hn) hf
    have hidx' := List.idxOf_lt_length_iff.mpr
      (search.settled.mem_of_mem_next (all name hn) hf)
    omega
  · cases h

end TreeShape
