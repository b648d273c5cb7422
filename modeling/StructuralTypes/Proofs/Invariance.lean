import StructuralTypes.Proofs.Indistinct

/-!
The verdict depends only on what types mean. In a term and in its scope, types may be put for others
with the same trees: a binder for its unfolding, fields in another order, a longer cycle for a short
one. The check then gives a type with the same tree, or fails in the same way at the same place. All
types are named coherently with one another, for only then do the comparisons decide on trees.
-/

namespace StructuralTypes

open Ty

variable {P Q : Type}

/-- Checking does not depend on how types are written. If the declared types and those in scope are
exchanged for types with the same trees, the check gives a type with the same tree, or fails in the
same way at the corresponding node. -/
theorem check_tree_eq_or_same_failure {G : Assignment} {t : Term P} {t' : Term Q}
    (ht : Term.Alike (SameMeaning G) t t') {scope scope' : Scope}
    (hscope : Scope.Alike (SameMeaning G) scope scope') (rule : CallRule) :
    (∃ T T', t.check rule scope = .ok T ∧ t'.check rule scope' = .ok T' ∧ T.tree = T'.tree) ∨
      ∃ e e', t.check rule scope = .error e ∧ t'.check rule scope' = .error e' ∧
        SameFailure t t' e e' := by
  let runs : Runs P Q := ⟨t, t', rule, rule, SameMeaning G⟩
  have hagree : runs.AgreeOn scope scope' t t' :=
    Runs.check_agree (indistinct_sameMeaning G) (.root t t') ht hscope
  rcases hagree.of_same_rule rfl with ⟨T, T', hT, hT', hsame⟩ | hfailure
  · exact .inl ⟨T, T', hT, hT', hsame.tree_eq⟩
  · exact .inr hfailure

/-- A stream and a cell before such a stream change places. Where one check takes the rest from an
object, the other finds a binder. -/
theorem check_tree_eq_or_same_failure_stream :
    let stream := mu "X" (object [("m", number), ("n", var "X")])
    let tail := mu "Y" (object [("n", var "Y"), ("m", number)])
    let cell := object [("n", tail), ("m", number)]
    let rest (u : Ty) : Term Unit :=
      .call () (.lambda () [("z", u)] (.field () (.ref () "z") "n")) [.ref () "w"]
    (∃ G, Term.Alike (SameMeaning G) (rest stream) (rest cell) ∧
        Scope.Alike (SameMeaning G) [("w", cell)] [("w", stream)]) ∧
      (rest stream).check .exact [("w", cell)] = .ok stream ∧
      (rest cell).check .exact [("w", stream)] = .ok tail ∧ stream.tree = tail.tree := by
  intro stream tail cell rest
  have hstream : stream.Guarded := guarded_iff.mpr (by decide)
  have hcell : cell.Guarded := guarded_iff.mpr (by decide)
  obtain ⟨G, hG, hG'⟩ := exists_coherent_of_nodup hstream.closed hcell.closed (by decide)
  have hsame : SameMeaning G stream cell :=
    ⟨⟨hstream, hG⟩, ⟨hcell, hG'⟩, (WellNamed.equals_eq_true_iff ⟨hstream, hG⟩ ⟨hcell, hG'⟩).mp rfl⟩
  have hsame' : SameMeaning G cell stream := ⟨hsame.right, hsame.left, hsame.tree_eq.symm⟩
  have ht : Term.Alike (SameMeaning G) (rest stream) (rest cell) :=
    .call (.lambda (.cons ⟨rfl, hsame⟩ .nil) (.field (.ref () () "z") "n"))
      (.cons (.ref () () "w") .nil)
  have hscope : Scope.Alike (SameMeaning G) [("w", cell)] [("w", stream)] :=
    Row.Alike.lookup (.cons ⟨rfl, hsame'⟩ .nil)
  have hT : (rest stream).check .exact [("w", cell)] = .ok stream := rfl
  have hT' : (rest cell).check .exact [("w", stream)] = .ok tail := rfl
  refine ⟨⟨G, ht, hscope⟩, hT, hT', ?_⟩
  rcases check_tree_eq_or_same_failure ht hscope .exact with
    ⟨T, T', h, h', htree⟩ | ⟨e, e', h, -⟩
  · cases hT.symm.trans h
    cases hT'.symm.trans h'
    exact htree
  · cases hT.symm.trans h

end StructuralTypes
