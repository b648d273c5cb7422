import StructuralTypes.Proofs.Safety

/-!
The two call rules. A type that equals the one of the parameter is a subtype of it, so the exact
rule should let nothing pass that subtyping turns away. It does so only where equality is mistaken
about an argument: a check that succeeds under the exact rule gives the same type under subtyping,
or ends at an argument whose type was found equal to the one of the parameter although their trees
differ.

Where the names of all declared types and of all types in scope are coherent, equality makes no
mistakes, and the exact rule is a restriction of the other one.
-/

namespace StructuralTypes

open Ty

variable {P : Type} {t : Term P} {scope : Scope} {T : Ty}

/-- What becomes of a check under subtyping that succeeds under the exact rule. -/
theorem Admissible.check_subtyping_cases {I : Ty → Prop} (hI : Admissible I)
    (ht : ∀ u ∈ t.annotations, I u) (hscope : ∀ name u, scope.resolve name = some u → I u)
    (h : t.check .exact scope = .ok T) :
    t.check .subtyping scope = .ok T ∨
      ∃ arg ∈ t.subterms, ∃ name needed found,
        t.check .subtyping scope = .error (.fault ⟨arg, .argumentTypeMismatch name needed found⟩) ∧
        I needed ∧ I found ∧ found.equals needed = .ok true ∧ found.tree ≠ needed.tree := by
  have hagree := hI.agreeOn_self ht hscope .exact .subtyping
  unfold Runs.AgreeOn at hagree
  rw [h] at hagree
  generalize t.check .subtyping scope = outcome at *
  cases hagree with
  | ok hT => exact .inl (congrArg Except.ok hT.1.symm)
  | right hrefusal =>
      cases hrefusal with
      | @intro arg name needed found place hneeded hfound refused passed =>
          obtain ⟨_, rfl, hneeded⟩ := hneeded
          obtain ⟨_, rfl, hfound⟩ := hfound
          refine .inr ⟨arg, place, name, _, _, rfl, hneeded, hfound, passed, fun htree => ?_⟩
          -- Types with one tree are subtypes of each other, so the argument would have passed.
          have hboth := interchangeable_of_tree_eq (hI.guarded hfound).toProper
            (hI.guarded hneeded).toProper htree
          cases refused.symm.trans hboth.2.2.1

/-- What passes under the exact rule for calls passes under subtyping and with the same type, or it
is turned away at an argument whose type was found equal to that of the parameter although their
trees differ. Where the names of all types are coherent with one another it always passes. -/
theorem check_subtyping_of_check_exact
    (ht : ∀ u ∈ t.annotations, u.Closed ∧ u.Contractive ∧ u.DistinctFields)
    (hscope : ∀ name u, scope.resolve name = some u → u.Closed ∧ u.Contractive ∧ u.DistinctFields)
    (h : t.check .exact scope = .ok T) :
    (t.check .subtyping scope = .ok T ∨
      ∃ arg ∈ t.subterms, ∃ name needed found,
        t.check .subtyping scope = .error (.fault ⟨arg, .argumentTypeMismatch name needed found⟩) ∧
        found.equals needed = .ok true ∧ found.tree ≠ needed.tree) ∧
      ((∃ G, (∀ u ∈ t.annotations, Coherent G u) ∧
          ∀ name u, scope.resolve name = some u → Coherent G u) →
        t.check .subtyping scope = .ok T) := by
  have hdeclared (u : Ty) (hu : u ∈ t.annotations) : u.Guarded := guarded_iff.mpr (ht u hu)
  have hbound (name : String) (u : Ty) (hu : scope.resolve name = some u) : u.Guarded :=
    guarded_iff.mpr (hscope name u hu)
  constructor
  · rcases admissible_guarded.check_subtyping_cases hdeclared hbound h with
      hok | ⟨arg, harg, name, needed, found, hfault, -, -, hequals, htree⟩
    · exact .inl hok
    · exact .inr ⟨arg, harg, name, needed, found, hfault, hequals, htree⟩
  · rintro ⟨G, hG, hG'⟩
    rcases (admissible_wellNamed G).check_subtyping_cases (fun u hu => ⟨hdeclared u hu, hG u hu⟩)
        (fun name u hu => ⟨hbound name u hu, hG' name u hu⟩) h with
      hok | ⟨arg, harg, name, needed, found, hfault, hneeded, hfound, hequals, htree⟩
    · exact hok
    · exact absurd ((hfound.equals_eq_true_iff hneeded).mp hequals) htree

/-- A list is passed that is written as a cell before a list, and comes back as the list of the
parameter. -/
theorem check_subtyping_of_check_exact_list :
    let needed := mu "L" (object [("head", number), ("tail", func [] (var "L"))])
    let found := object [("tail", func [] (mu "M" (object [("head", number),
      ("tail", func [] (var "M"))]))), ("head", number)]
    let t : Term Unit := .call () (.lambda () [("x", needed)] (.ref () "x")) [.ref () "y"]
    let scope : Scope := [("y", found)]
    (∀ u ∈ t.annotations, u.Closed ∧ u.Contractive ∧ u.DistinctFields) ∧
      (∀ name u, scope.resolve name = some u →
        u.Closed ∧ u.Contractive ∧ u.DistinctFields) ∧
      t.check .exact scope = .ok needed ∧ JointlyCoherent needed found ∧
      t.check .subtyping scope = .ok needed := by
  intro needed found t scope
  have hneeded : needed.Closed ∧ needed.Contractive ∧ needed.DistinctFields := by decide
  have hfound : found.Closed ∧ found.Contractive ∧ found.DistinctFields := by decide
  have hannotations : t.annotations = [needed] := rfl
  have hresolve (name : String) (u : Ty) (hu : scope.resolve name = some u) : u = found := by
    obtain ⟨-, rfl⟩ : name = "y" ∧ u = found := by simpa [scope] using Row.mem_of_lookup hu
    rfl
  have ht : ∀ u ∈ t.annotations, u.Closed ∧ u.Contractive ∧ u.DistinctFields := by decide
  have hscope (name : String) (u : Ty) (hu : scope.resolve name = some u) :
      u.Closed ∧ u.Contractive ∧ u.DistinctFields := hresolve name u hu ▸ hfound
  have h : t.check .exact scope = .ok needed := rfl
  have hcoherent : JointlyCoherent needed found :=
    exists_coherent_of_nodup hneeded.1 hfound.1 (by decide)
  obtain ⟨G, hG, hG'⟩ := hcoherent
  refine ⟨ht, hscope, h, ⟨G, hG, hG'⟩, ?_⟩
  refine (check_subtyping_of_check_exact ht hscope h).2 ⟨G, ?_, fun name u hu => ?_⟩
  · rw [hannotations]
    exact List.forall_mem_singleton.mpr hG
  · exact hresolve name u hu ▸ hG'

/-- Below a parameter, where subtyping looks at the sides the other way round, equality mistakes a
shadowed binder for one that is not. The exact rule lets the argument pass, and subtyping turns it
away. -/
theorem check_exact_of_not_subtyping_shadowed :
    let found := mu "X" (object [
      ("n", mu "Z" (object [("p", func [("q", mu "A" (object [("n", var "Z"),
        ("m", mu "A" (object [("k", var "A")]))]))] number)])),
      ("m", mu "Y" (object [("k", var "X")]))])
    let needed := mu "U" (object [
      ("n", object [("p", func [("q", var "U")] number)]),
      ("m", mu "V" (object [("k", var "U")]))])
    let t : Term Unit := .call () (.lambda () [("x", needed)] (.literal () (.int 1))) [.ref () "y"]
    let scope : Scope := [("y", found)]
    (∀ u ∈ t.annotations, u.Closed ∧ u.Contractive ∧ u.DistinctFields) ∧
      (∀ name u, scope.resolve name = some u →
        u.Closed ∧ u.Contractive ∧ u.DistinctFields) ∧
      t.check .exact scope = .ok number ∧
      t.check .subtyping scope =
        .error (.fault ⟨.ref () "y", .argumentTypeMismatch "x" needed found⟩) := by
  intro found needed t scope
  refine ⟨?_, fun name u hu => ?_, rfl, rfl⟩
  · decide
  · obtain ⟨-, rfl⟩ : name = "y" ∧ u = found := by simpa [scope] using Row.mem_of_lookup hu
    decide

end StructuralTypes
