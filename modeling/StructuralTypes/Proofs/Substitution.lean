import StructuralTypes.Proofs.Reachable

/-!
The laws of substitution by closed types. Names are replaced as they stand and no binder is renamed,
so what keeps a replacement out of reach of the binders around it is that it is closed. Then it
takes one variable away and adds none, and it does not matter in which order two variables are
replaced: either way both values are put in place at once (`subst_subst`).
-/

namespace StructuralTypes.Ty

/-- One replacement after another puts both values in place at once, provided that the second finds
nothing to replace in what the first has put in. -/
theorem subst_subst {x y : String} (hxy : x ≠ y) {r : Ty} (hr : ¬ Free y r) (s t : Ty) :
    subst y s (subst x r t) =
      close (Function.update (Function.update (fun _ => none) x (some r)) y (some s)) t := by
  have hvalues : Values.All (fun u => ¬ Free y u)
      (Function.update (fun _ => none) x (some r)) := by
    apply Values.All.update
    · exact fun _ _ hu => nomatch hu
    · intro u hu
      rwa [← Option.some.inj hu]
  -- The values of the first replacement leave `y` out, so that `y` may be put in afterwards.
  have hleft : Function.update (Function.update (fun _ => none) x (some r)) y none =
      Function.update (fun _ => none) x (some r) := by
    rw [Function.update_eq_self_iff, Function.update_of_ne hxy.symm]
  have h := subst_close (r := s) hvalues t
  rwa [hleft, ← subst_eq_close] at h

theorem subst_comm {x y : String} (hxy : x ≠ y) {r s : Ty} (hr : ¬ Free y r) (hs : ¬ Free x s)
    (t : Ty) : subst y s (subst x r t) = subst x r (subst y s t) := by
  rw [subst_subst hxy hr, subst_subst hxy.symm hs, Function.update_comm hxy]

/-- Substitution of closed types: it removes one variable from the free ones and adds none, leaves a
host without this variable as it is, and two substitutions for different variables may change
places. -/
theorem free_subst_iff_and_subst_comm {x y : String} (hxy : x ≠ y) {r s : Ty} (hr : r.Closed)
    (hs : s.Closed) (host : Ty) :
    (∀ z, Free z (subst x r host) ↔ Free z host ∧ z ≠ x) ∧
      (¬ Free x host → subst x r host = host) ∧
      subst y s (subst x r host) = subst x r (subst y s host) := by
  refine ⟨fun z => ?_, subst_of_not_free, subst_comm hxy (hr y) (hs x) host⟩
  rw [free_subst_iff hr, and_comm]

/-- Both variables are free and bound in the host, and each replacement binds the name of the other
variable. -/
theorem free_subst_iff_and_subst_comm_shadowed :
    let host := func [("f", var "X"), ("g", mu "X" (func [("h", var "X")] (var "Y")))]
      (mu "Y" (object [("m", var "Y"), ("n", var "X"), ("o", var "Z")]))
    let r := mu "Y" (object [("n", var "Y")])
    let s := mu "X" (func [("f", var "X")] number)
    r.Closed ∧ s.Closed ∧
      (∀ z, Free z (subst "X" r host) ↔ Free z host ∧ z ≠ "X") ∧
      (¬ Free "X" host → subst "X" r host = host) ∧
      subst "Y" s (subst "X" r host) = subst "X" r (subst "Y" s host) := by
  intro host r s
  have hr : r.Closed := by decide
  have hs : s.Closed := by decide
  exact ⟨hr, hs, free_subst_iff_and_subst_comm (by decide) hr hs host⟩

end StructuralTypes.Ty
