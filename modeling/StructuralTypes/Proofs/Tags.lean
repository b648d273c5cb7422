import StructuralTypes.Proofs.Blame

/-!
Tags do not matter to a check. A check of a term with other tags is the check of the term, but for
the tags of the node that is blamed (`check_map`). Two terms that differ in their tags only arise
from one term that carries both tags at each node, so their checks end alike: with one type, with
one defect, or with one cause and blame for the nodes at the end of one path.
-/

namespace StructuralTypes

variable {P Q : Type}

/-! ### Other tags -/

def Fault.map (g : P → Q) (f : Fault P) : Fault Q := ⟨f.term.map g, f.cause⟩

def Failure.map (g : P → Q) : Failure P → Failure Q
  | .fault f => .fault (f.map g)
  | .defect d => .defect d

/-- The second outcome is the first one with other tags. -/
def Retagged {α : Type} (g : P → Q) (x : Except (Failure P) α) (y : Except (Failure Q) α) : Prop :=
  y = x.mapError (Failure.map g)

namespace Retagged

variable {α β : Type} {g : P → Q}

theorem ok (g : P → Q) (a : α) :
    Retagged g (.ok a : Except (Failure P) α) (.ok a : Except (Failure Q) α) := rfl

theorem blame (g : P → Q) (t : Term P) (cause : Cause) :
    Retagged g (Term.blame t cause : Except (Failure P) α) (Term.blame (t.map g) cause) := rfl

theorem bind {x : Except (Failure P) α} {y : Except (Failure Q) α}
    {f : α → Except (Failure P) β} {k : α → Except (Failure Q) β} (h : Retagged g x y)
    (hfk : ∀ a, Retagged g (f a) (k a)) : Retagged g (x >>= f) (y >>= k) := by
  rw [h]
  cases x with
  | error e => rfl
  | ok a => exact hfk a

theorem liftDefect_bind (x : Except Defect α) {f : α → Except (Failure P) β}
    {k : α → Except (Failure Q) β} (hfk : ∀ a, Retagged g (f a) (k a)) :
    Retagged g (Term.liftDefect x >>= f) (Term.liftDefect x >>= k) := by
  cases x with
  | error d => rfl
  | ok a => exact hfk a

end Retagged

namespace Term

variable {rule : CallRule} {scope : Scope} {g : P → Q}

theorem checkArgs_map {args : List (Term P)}
    (h : ∀ a ∈ args, Retagged g (a.check rule scope) ((a.map g).check rule scope)) (params : Row) :
    Retagged g (checkArgs rule scope args params)
      (checkArgs rule scope (args.map (map g)) params) := by
  induction args generalizing params with
  | nil => exact .ok g ()
  | cons arg args ih =>
      cases params with
      | nil => exact .ok g ()
      | cons param params =>
          obtain ⟨harg, hargs⟩ := List.forall_mem_cons.mp h
          rw [List.map_cons, checkArgs, checkArgs]
          refine harg.bind fun found => .liftDefect_bind _ fun r => ?_
          cases r with
          | true => exact ih hargs params
          | false => exact .blame g arg _

theorem checkFields_map {fields : List (String × Term P)}
    (h : ∀ f ∈ fields, Retagged g (f.2.check rule scope) ((f.2.map g).check rule scope)) :
    Retagged g (checkFields rule scope fields)
      (checkFields rule scope (fields.map fun f => (f.1, f.2.map g))) := by
  induction fields with
  | nil => exact .ok g []
  | cons field fields ih =>
      obtain ⟨hfield, hfields⟩ := List.forall_mem_cons.mp h
      rw [List.map_cons, checkFields, checkFields]
      exact hfield.bind fun type => (ih hfields).bind fun row => .ok g _

/-- A check of a term with other tags is the check of the term, with those tags. -/
theorem check_map (g : P → Q) (t : Term P) (rule : CallRule) (scope : Scope) :
    Retagged g (t.check rule scope) ((t.map g).check rule scope) := by
  induction t generalizing scope with
  | literal tag value => exact .ok g value.type
  | cond tag test yes no htest hyes hno =>
      rw [map, check, check]
      refine (htest scope).bind fun testType => .liftDefect_bind _ fun head => ?_
      cases head with
      | boolean =>
          refine (hyes scope).bind fun yesType => (hno scope).bind fun noType =>
            .liftDefect_bind _ fun r => ?_
          cases r with
          | true => exact .ok g yesType
          | false => exact .blame g (cond tag test yes no) _
      | _ => exact .blame g test _
  | add tag left right hleft hright =>
      rw [map, check, check]
      refine (hleft scope).bind fun leftType => .liftDefect_bind _ fun head => ?_
      cases head with
      | number =>
          refine (hright scope).bind fun rightType => .liftDefect_bind _ fun head => ?_
          cases head with
          | number => exact .ok g Ty.number
          | _ => exact .blame g right _
      | _ => exact .blame g left _
  | ref tag name =>
      rw [map, check, check]
      cases scope.resolve name with
      | some t => exact .ok g t
      | none => exact .blame g (ref tag name) _
  | lambda tag params body hbody =>
      rw [map, check, check]
      exact (hbody _).bind fun result => .ok g _
  | call tag callee args hcallee hargs =>
      have hmap :
          (call tag callee args).map g = call (g tag) (callee.map g) (args.map (map g)) := by
        rw [map, mapArgs_eq_map]
      rw [hmap, check, check]
      refine (hcallee scope).bind fun calleeType => .liftDefect_bind _ fun head => ?_
      cases head with
      | func params result =>
          simp only [List.length_map]
          split
          · exact (checkArgs_map (fun a ha => hargs a ha scope) params).bind fun _ => .ok g result
          · rw [← hmap]
            exact .blame g (call tag callee args) _
      | _ => exact .blame g callee _
  | seq tag first rest hfirst hrest =>
      rw [map, check, check]
      exact (hfirst scope).bind fun _ => hrest scope
  | const tag name init rest hinit hrest =>
      rw [map, check, check]
      exact (hinit scope).bind fun type => hrest (scope.bind name type)
  | record tag fields hfields =>
      rw [map, mapFields_eq_map, check, check]
      refine (checkFields_map fun f hf => hfields f hf scope).bind fun row => ?_
      rw [Ty.mkObject]
      split
      · exact .ok g _
      · rfl
  | field tag owner name howner =>
      rw [map, check, check]
      refine (howner scope).bind fun ownerType => .liftDefect_bind _ fun head => ?_
      cases head with
      | object fields =>
          simp only
          cases fields.lookup name with
          | some t => exact .ok g t
          | none => exact .blame g (field tag owner name) _
      | _ => exact .blame g owner _
  | letRec tag name params result body rest hbody hrest =>
      rw [map, check, check]
      refine (hbody _).bind fun bodyType => .liftDefect_bind _ fun r => ?_
      cases r with
      | true => exact hrest _
      | false => exact .blame g (letRec tag name params result body rest) _

/-! ### Terms that differ in their tags -/

/-- The terms are the same once the tags are taken off. -/
def SameButTags (t : Term P) (t' : Term Q) : Prop := t.map (fun _ => ()) = t'.map fun _ => ()

/-- One term becomes `t` by taking the first tag at each node, and `t'` by taking the second. -/
def Joined (t : Term P) (t' : Term Q) : Prop :=
  ∃ u : Term (P × Q), u.map Prod.fst = t ∧ u.map Prod.snd = t'

/-- Lists are joined if their members are. -/
theorem exists_map_eq_and_map_eq {α β γ ε : Type} {F : γ → α} {G : γ → β} {e : α → ε} {e' : β → ε}
    {l : List α} {l' : List β} (ih : ∀ a ∈ l, ∀ b, e a = e' b → ∃ c, F c = a ∧ G c = b)
    (h : l.map e = l'.map e') : ∃ cs : List γ, cs.map F = l ∧ cs.map G = l' := by
  induction l generalizing l' with
  | nil =>
      obtain rfl : l' = [] := List.map_eq_nil_iff.mp h.symm
      exact ⟨[], rfl, rfl⟩
  | cons a l ihl =>
      cases l' with
      | nil => cases h
      | cons b l' =>
          obtain ⟨hab, hl⟩ := List.cons.inj h
          obtain ⟨c, rfl, rfl⟩ := ih a List.mem_cons_self b hab
          obtain ⟨cs, rfl, rfl⟩ := ihl (fun d hd => ih d (List.mem_cons_of_mem _ hd)) hl
          exact ⟨c :: cs, rfl, rfl⟩

theorem SameButTags.joined {t : Term P} {t' : Term Q} (h : t.SameButTags t') : Joined t t' := by
  -- By induction on the left term. Its form is left when the tags are gone, so the right term has
  -- that form too.
  unfold SameButTags at h
  induction t generalizing t' with
  | literal p value =>
      cases t' with
      | literal q value' =>
          obtain rfl : value = value' := by simpa [map] using h
          exact ⟨.literal (p, q) value, rfl, rfl⟩
      | _ => simp [map] at h
  | cond p test yes no htest hyes hno =>
      cases t' with
      | cond q test' yes' no' =>
          simp only [map, cond.injEq, true_and] at h
          obtain ⟨u₁, rfl, rfl⟩ := htest h.1
          obtain ⟨u₂, rfl, rfl⟩ := hyes h.2.1
          obtain ⟨u₃, rfl, rfl⟩ := hno h.2.2
          exact ⟨.cond (p, q) u₁ u₂ u₃, rfl, rfl⟩
      | _ => simp [map] at h
  | add p left right hleft hright =>
      cases t' with
      | add q left' right' =>
          simp only [map, add.injEq, true_and] at h
          obtain ⟨u₁, rfl, rfl⟩ := hleft h.1
          obtain ⟨u₂, rfl, rfl⟩ := hright h.2
          exact ⟨.add (p, q) u₁ u₂, rfl, rfl⟩
      | _ => simp [map] at h
  | ref p name =>
      cases t' with
      | ref q name' =>
          obtain rfl : name = name' := by simpa [map] using h
          exact ⟨.ref (p, q) name, rfl, rfl⟩
      | _ => simp [map] at h
  | lambda p params body hbody =>
      cases t' with
      | lambda q params' body' =>
          simp only [map, lambda.injEq, true_and] at h
          obtain ⟨rfl, h⟩ := h
          obtain ⟨u, rfl, rfl⟩ := hbody h
          exact ⟨.lambda (p, q) params u, rfl, rfl⟩
      | _ => simp [map] at h
  | call p callee args hcallee hargs =>
      cases t' with
      | call q callee' args' =>
          simp only [map, mapArgs_eq_map, call.injEq, true_and] at h
          obtain ⟨u, rfl, rfl⟩ := hcallee h.1
          obtain ⟨us, rfl, rfl⟩ :=
            exists_map_eq_and_map_eq (fun a ha _ heq => hargs a ha heq) h.2
          exact ⟨.call (p, q) u us, by simp [map], by simp [map]⟩
      | _ => simp [map] at h
  | seq p first rest hfirst hrest =>
      cases t' with
      | seq q first' rest' =>
          simp only [map, seq.injEq, true_and] at h
          obtain ⟨u₁, rfl, rfl⟩ := hfirst h.1
          obtain ⟨u₂, rfl, rfl⟩ := hrest h.2
          exact ⟨.seq (p, q) u₁ u₂, rfl, rfl⟩
      | _ => simp [map] at h
  | const p name init rest hinit hrest =>
      cases t' with
      | const q name' init' rest' =>
          simp only [map, const.injEq, true_and] at h
          obtain ⟨rfl, hinit', hrest'⟩ := h
          obtain ⟨u₁, rfl, rfl⟩ := hinit hinit'
          obtain ⟨u₂, rfl, rfl⟩ := hrest hrest'
          exact ⟨.const (p, q) name u₁ u₂, rfl, rfl⟩
      | _ => simp [map] at h
  | record p fields hfields =>
      cases t' with
      | record q fields' =>
          simp only [map, mapFields_eq_map, record.injEq, true_and] at h
          have hjoined (f : String × Term P) (hf : f ∈ fields) (f' : String × Term Q)
              (heq : (f.1, f.2.map fun _ => ()) = (f'.1, f'.2.map fun _ => ())) :
              ∃ u : String × Term (P × Q), (u.1, u.2.map Prod.fst) = f ∧
                (u.1, u.2.map Prod.snd) = f' := by
            obtain ⟨hname, hterm⟩ := Prod.mk.inj heq
            obtain ⟨u, hu, hu'⟩ := hfields f hf hterm
            exact ⟨(f.1, u), Prod.ext rfl hu, Prod.ext hname hu'⟩
          obtain ⟨us, rfl, rfl⟩ := exists_map_eq_and_map_eq hjoined h
          exact ⟨.record (p, q) us, by simp [map], by simp [map]⟩
      | _ => simp [map] at h
  | field p owner name howner =>
      cases t' with
      | field q owner' name' =>
          simp only [map, field.injEq, true_and] at h
          obtain ⟨howner', rfl⟩ := h
          obtain ⟨u, rfl, rfl⟩ := howner howner'
          exact ⟨.field (p, q) u name, rfl, rfl⟩
      | _ => simp [map] at h
  | letRec p name params result body rest hbody hrest =>
      cases t' with
      | letRec q name' params' result' body' rest' =>
          simp only [map, letRec.injEq, true_and] at h
          obtain ⟨rfl, rfl, rfl, hbody', hrest'⟩ := h
          obtain ⟨u₁, rfl, rfl⟩ := hbody hbody'
          obtain ⟨u₂, rfl, rfl⟩ := hrest hrest'
          exact ⟨.letRec (p, q) name params result u₁ u₂, rfl, rfl⟩
      | _ => simp [map] at h

/-- Tags decide nothing. Two terms that are the same but for their tags have the same type, or are
blamed for the same cause at nodes with the same path, or run into the same defect. -/
theorem check_eq_or_blame_same_path {t : Term P} {t' : Term Q} (h : t.SameButTags t')
    (rule : CallRule) (scope : Scope) :
    (∃ T, t.check rule scope = .ok T ∧ t'.check rule scope = .ok T) ∨
      (∃ path s s' cause, t.subterm? path = some s ∧ t'.subterm? path = some s' ∧
        t.check rule scope = .error (.fault ⟨s, cause⟩) ∧
        t'.check rule scope = .error (.fault ⟨s', cause⟩)) ∨
      ∃ d, t.check rule scope = .error (.defect d) ∧ t'.check rule scope = .error (.defect d) := by
  obtain ⟨u, rfl, rfl⟩ := h.joined
  have hfst := check_map Prod.fst u rule scope
  have hsnd := check_map Prod.snd u rule scope
  unfold Retagged at hfst hsnd
  rw [hfst, hsnd]
  cases hu : u.check rule scope with
  | ok T => exact .inl ⟨T, rfl, rfl⟩
  | error e =>
      cases e with
      | fault f =>
          -- The node stands at the end of one path, whichever of its tags is taken.
          obtain ⟨path, hpath⟩ := exists_subterm?_of_fault hu
          refine .inr (.inl ⟨path, f.term.map Prod.fst, f.term.map Prod.snd, f.cause, ?_, ?_, rfl,
            rfl⟩)
          · rw [subterm?_map, hpath, Option.map_some]
          · rw [subterm?_map, hpath, Option.map_some]
      | defect d => exact .inr (.inr ⟨d, rfl, rfl⟩)

/-- Numbers at the nodes of one term, and one word at all nodes of the other. The same argument is
blamed, each time with its own tag. -/
theorem check_eq_or_blame_same_path_argument :
    let t : Term Nat := .record 0 [("a", .literal 1 (.int 1)), ("b", .call 2
      (.lambda 3 [("x", .number)] (.ref 4 "x")) [.literal 5 (.bool true)])]
    let t' : Term String := .record "?" [("a", .literal "?" (.int 1)), ("b", .call "?"
      (.lambda "?" [("x", .number)] (.ref "?" "x")) [.literal "?" (.bool true)])]
    t.SameButTags t' ∧
      ∃ path s s' cause, t.subterm? path = some s ∧ t'.subterm? path = some s' ∧
        t.check .subtyping .empty = .error (.fault ⟨s, cause⟩) ∧
        t'.check .subtyping .empty = .error (.fault ⟨s', cause⟩) := by
  intro t t'
  have h : t.SameButTags t' := rfl
  have hfault : t.check .subtyping .empty = .error (.fault ⟨.literal 5 (.bool true),
      .argumentTypeMismatch "x" .number .boolean⟩) := rfl
  refine ⟨h, ?_⟩
  rcases check_eq_or_blame_same_path h .subtyping .empty with ⟨T, hT, -⟩ | hblame | ⟨d, hd, -⟩
  · cases hfault.symm.trans hT
  · exact hblame
  · cases hfault.symm.trans hd

end Term

end StructuralTypes
