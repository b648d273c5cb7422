import StructuralTypes.Proofs.Head

/-!
How the search for a head ends, for every type, open or closed. A type is a row of binders with a
core behind them. Binders that the core does not mention come off one by one, so the search ends at
the core with its variables replaced, after as many unfoldings as there are binders.

If the core is a variable of one of the binders, there is no head. The binders before the one that
counts come off, and what is left comes back to itself when its own binders have come off
(`Headless.exists_return`). So as many unfoldings as there are binders lead to a type met before,
and the search stops there at the latest.
-/

namespace StructuralTypes.Ty

/-! ### Binders and core -/

/-- What stands behind the binders in front. -/
def core : Ty → Ty
  | mu _ body => body.core
  | t => t

theorem foldr_leading_core (t : Ty) : t.leading.foldr mu t.core = t := by
  induction t with
  | mu x body ih => exact congrArg (mu x) ih
  | _ => rfl

theorem core_ne_mu (t : Ty) (x : String) (body : Ty) : t.core ≠ mu x body := by
  induction t with
  | mu y body' ih => exact ih
  | _ => simp [core]

theorem tailVar_eq_some_iff {t : Ty} {x : String} : t.tailVar = some x ↔ t.core = var x := by
  induction t with
  | mu y body ih => exact ih
  | _ => simp [tailVar, core]

theorem headless_iff {t : Ty} : t.Headless ↔ ∃ x ∈ t.leading, t.core = var x := by
  simp only [Headless, tailVar_eq_some_iff]

theorem free_foldr_mu {x : String} {names : List String} {t : Ty} :
    Free x (names.foldr mu t) ↔ x ∉ names ∧ Free x t := by
  induction names with
  | nil => simp
  | cons y names ih =>
      rw [List.foldr_cons, Free, ih, List.mem_cons, not_or, ne_comm, and_assoc]

theorem subst_foldr_mu {x : String} {r t : Ty} {names : List String} (h : x ∉ names) :
    subst x r (names.foldr mu t) = names.foldr mu (subst x r t) := by
  induction names with
  | nil => rfl
  | cons y names ih =>
      rw [List.mem_cons, not_or] at h
      rw [List.foldr_cons, List.foldr_cons, subst, if_neg (Ne.symm h.1), ih h.2]

/-- Binders whose names do not count come off and leave what is behind them as it is. -/
theorem iterate_peel_foldr_mu {names : List String} {t : Ty} (h : ∀ x ∈ names, ¬ Free x t) :
    peel^[names.length] (names.foldr mu t) = t := by
  induction names with
  | nil => rfl
  | cons y names ih =>
      obtain ⟨hy, hnames⟩ := List.forall_mem_cons.mp h
      have hfree : ¬ Free y (names.foldr mu t) := fun hfree => hy (free_foldr_mu.mp hfree).2
      rw [List.length_cons, Function.iterate_succ_apply, List.foldr_cons, peel, unroll,
        subst_of_not_free hfree]
      exact ih hnames

/-! ### Types without a head -/

theorem Headless.proper {t : Ty} (h : t.Headless) : t.Proper := by
  obtain ⟨x, hx, hcore⟩ := headless_iff.mp h
  rw [← foldr_leading_core t, hcore]
  constructor
  · intro y hy
    obtain ⟨hnot, rfl⟩ := free_foldr_mu.mp hy
    exact hnot hx
  · clear hx
    induction t.leading with
    | nil => trivial
    | cons y names ih => exact ih

/-- As many unfoldings as there are binders in front lead back to where fewer have led. -/
theorem Headless.exists_return {t : Ty} (h : t.Headless) :
    ∃ i < t.binders, peel^[t.binders] t = peel^[i] t := by
  obtain ⟨x, hx, hcore⟩ := headless_iff.mp h
  -- The last of the binders called `x` is the one that counts.
  obtain ⟨before, after, hleading, hafter⟩ : ∃ before after,
      t.leading = before ++ x :: after ∧ x ∉ after := by
    obtain ⟨after, before, hreverse, hnot⟩ := List.eq_append_cons_of_mem (List.mem_reverse.mpr hx)
    refine ⟨before.reverse, after.reverse, ?_, by rwa [List.mem_reverse]⟩
    rw [← List.reverse_reverse t.leading, hreverse]
    simp
  let loop : Ty := (x :: after).foldr mu (var x)
  have hclosed : loop.Closed := by
    intro y hy
    obtain ⟨hnot, rfl⟩ := free_foldr_mu.mp hy
    exact hnot List.mem_cons_self
  have ht : t = before.foldr mu loop := by
    rw [← foldr_leading_core t, hcore, hleading, List.foldr_append]
  have hreach : peel^[before.length] t = loop := by
    rw [ht]
    exact iterate_peel_foldr_mu fun y _ => hclosed y
  have hround : peel^[after.length + 1] loop = loop := by
    have hpeel : peel loop = after.foldr mu loop := by
      change subst x loop (after.foldr mu (var x)) = _
      rw [subst_foldr_mu hafter, subst, if_pos rfl]
    rw [Function.iterate_succ_apply, hpeel]
    exact iterate_peel_foldr_mu fun y _ => hclosed y
  have hbinders : t.binders = after.length + 1 + before.length := by
    rw [binders_eq_length_leading, hleading, List.length_append, List.length_cons]
    omega
  refine ⟨before.length, by omega, ?_⟩
  rw [hbinders, Function.iterate_add_apply, hreach, hround]

theorem headFrom_of_met {first body : Ty} {x : String} {bound : Nat} {heads : List Ty}
    (hmet : (heads.any fun s => sameShape [] s (mu x body)) = true) :
    headFrom first bound heads (mu x body) = .error (.nonContractive first) := by
  cases bound with
  | zero => rw [headFrom, if_pos hmet]
  | succ bound => rw [headFrom, if_pos hmet]

/-- The search stops at a shape it has met, if it is allowed to go so far. -/
theorem headFrom_eq_error {first t : Ty} {k bound : Nat} {heads : List Ty} (h : t.Headless)
    (hk : k ≤ bound)
    (hreturn : (∃ s ∈ heads, sameShape [] s (peel^[k] t) = true) ∨
      ∃ i < k, sameShape [] (peel^[i] t) (peel^[k] t) = true) :
    headFrom first bound heads t = .error (.nonContractive first) := by
  induction k generalizing t bound heads with
  | zero =>
      obtain ⟨x, body, rfl⟩ := h.eq_mu
      rcases hreturn with ⟨s, hs, hshape⟩ | ⟨i, hi, -⟩
      · exact headFrom_of_met (List.any_eq_true.mpr ⟨s, hs, hshape⟩)
      · exact absurd hi (Nat.not_lt_zero i)
  | succ k ih =>
      obtain ⟨x, body, rfl⟩ := h.eq_mu
      by_cases hmet : (heads.any fun s => sameShape [] s (mu x body)) = true
      · exact headFrom_of_met hmet
      · obtain ⟨bound, rfl⟩ := Nat.exists_eq_succ_of_ne_zero (Nat.ne_zero_of_lt hk)
        rw [headFrom, if_neg hmet]
        refine ih h.unroll (Nat.le_of_succ_le_succ hk) ?_
        -- What has been met by now includes the type just unfolded.
        rcases hreturn with ⟨s, hs, hshape⟩ | ⟨i, hi, hshape⟩
        · exact .inl ⟨s, List.mem_cons_of_mem _ hs, hshape⟩
        · cases i with
          | zero => exact .inl ⟨mu x body, List.mem_cons_self, hshape⟩
          | succ i => exact .inr ⟨i, Nat.lt_of_succ_lt_succ hi, hshape⟩

theorem Headless.head_eq {t : Ty} (h : t.Headless) : t.head = .error (.nonContractive t) := by
  obtain ⟨i, hi, hreturn⟩ := h.exists_return
  refine headFrom_eq_error h (Nat.le_refl _) (.inr ⟨i, hi, ?_⟩)
  rw [hreturn]
  exact (h.iterate_peel i).proper.sameShape_self

/-! ### Types with a head -/

def unfoldTimes : Nat → Ty → Except Defect Ty
  | 0, t => .ok t
  | n + 1, t => do unfoldTimes n (← t.unfold)

theorem unfoldTimes_binders {t : Ty} (h : ¬ t.Headless) :
    unfoldTimes t.binders t = .ok t.uncovered := by
  generalize hn : t.binders = n
  induction n generalizing t with
  | zero => rw [unfoldTimes, uncovered, hn, Function.iterate_zero_apply]
  | succ n ih =>
      cases t with
      | mu x body =>
          have htail : body.tailVar ≠ some x := fun htail => h (headless_mu_of_tailVar htail)
          rw [uncovered_mu htail]
          refine ih (fun hunroll => h ((headless_unroll_iff htail).mp hunroll)) ?_
          rw [binders_unroll htail]
          exact Nat.succ.inj hn
      | _ => cases hn

/-- The constructor in front of a type, with the names that belong to it. -/
inductive Front where
  | boolean
  | number
  | func (params : List String)
  | object (fields : List String)
  | mu (binder : String)
  | var (name : String)
  deriving DecidableEq

def front : Ty → Front
  | boolean => .boolean
  | number => .number
  | func params _ => .func (Row.labels params)
  | object fields => .object (Row.labels fields)
  | mu x _ => .mu x
  | var x => .var x

theorem front_core_subst {x : String} {r t : Ty} (h : t.tailVar ≠ some x) :
    (subst x r t).core.front = t.core.front := by
  induction t with
  | boolean => rfl
  | number => rfl
  | func params result => simp only [subst, core, front, labels_substRow]
  | object fields => simp only [subst, core, front, labels_substRow]
  | mu y body ih =>
      by_cases hy : y = x
      · rw [subst, if_pos hy]
      · rw [subst, if_neg hy]
        exact ih h
  | var y =>
      have hy : y ≠ x := fun hy => h (congrArg some hy)
      rw [subst, if_neg hy]

/-- The head has the constructor of the core. -/
theorem front_uncovered {t : Ty} (h : ¬ t.Headless) : t.uncovered.front = t.core.front := by
  generalize hn : t.binders = n
  induction n generalizing t with
  | zero =>
      cases t with
      | mu x body => cases hn
      | _ => rfl
  | succ n ih =>
      cases t with
      | mu x body =>
          have htail : body.tailVar ≠ some x := fun htail => h (headless_mu_of_tailVar htail)
          have hunroll : (unroll x body).uncovered.front = (unroll x body).core.front := by
            refine ih (fun hunroll => h ((headless_unroll_iff htail).mp hunroll)) ?_
            rw [binders_unroll htail]
            exact Nat.succ.inj hn
          rw [uncovered_mu htail, hunroll, unroll, front_core_subst htail, core]
      | _ => cases hn

/-- The head of a type, open or closed. A type is a row of binders in front of its core. If the core
is a variable of one of these binders then there is no head, and the type itself is named as the
reason; otherwise unfolding each of them once gives the head, which has the constructor of the core
and, for a closed type, the same tree. -/
theorem head_cases (t : Ty) :
    t = t.leading.foldr mu t.core ∧ (∀ x body, t.core ≠ mu x body) ∧
      ((∃ x ∈ t.leading, t.core = var x) ∧ t.head = .error (.nonContractive t) ∨
        (¬ ∃ x ∈ t.leading, t.core = var x) ∧ ∃ s, t.head = .ok s ∧
          unfoldTimes t.leading.length t = .ok s ∧ (∀ x body, s ≠ mu x body) ∧
          s.front = t.core.front ∧ (t.Closed → s.Closed ∧ s.tree = t.tree)) := by
  refine ⟨t.foldr_leading_core.symm, t.core_ne_mu, ?_⟩
  rw [← headless_iff, ← binders_eq_length_leading]
  by_cases h : t.Headless
  · exact .inl ⟨h, h.head_eq⟩
  · refine .inr ⟨h, t.uncovered, head_eq_uncovered h, unfoldTimes_binders h, uncovered_ne_mu h,
      front_uncovered h, fun hclosed => ⟨?_, tree_uncovered t⟩⟩
    exact uncovered_of_step (fun _ _ hstep => hstep.closed) hclosed

/-- Two binders for one object, with both names in use. -/
theorem head_cases_twice :
    let t := mu "X" (mu "Y" (object [("x", var "X"), ("y", var "Y")]))
    t.Closed ∧ ∃ s, t.head = .ok s ∧ unfoldTimes 2 t = .ok s ∧ s.front = .object ["x", "y"] ∧
      s.Closed ∧ s.tree = t.tree := by
  intro t
  have hclosed : t.Closed := by decide
  obtain ⟨-, -, ⟨⟨x, -, hcore⟩, -⟩ | ⟨-, s, hs, htimes, -, hfront, hsame⟩⟩ := head_cases t
  · cases hcore
  · exact ⟨hclosed, s, hs, htimes, hfront, hsame hclosed⟩

end StructuralTypes.Ty
