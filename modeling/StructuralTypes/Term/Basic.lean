import StructuralTypes.Ty.Basic

/-!
Terms of the expression language. Each node carries a tag of type `P`, such as its position in a
source text. Checking is the same for every `P`, so it cannot depend on the tags.
-/

namespace StructuralTypes

inductive Literal where
  | bool (b : Bool)
  | int (n : Int)
  | float (x : Float)
  deriving Inhabited

/-- Programs whose nodes are tagged with a `P`. -/
inductive Term (P : Type) where
  | literal (tag : P) (value : Literal)
  | cond (tag : P) (test yes no : Term P)
  | add (tag : P) (left right : Term P)
  | ref (tag : P) (name : String)
  | lambda (tag : P) (params : List (String × Ty)) (body : Term P)
  | call (tag : P) (callee : Term P) (args : List (Term P))
  /-- Evaluates `first` for its effect, then `rest` for its value. -/
  | seq (tag : P) (first rest : Term P)
  /-- Gives the value of `init` a name in `rest`. -/
  | const (tag : P) (name : String) (init rest : Term P)
  | record (tag : P) (fields : List (String × Term P))
  | field (tag : P) (owner : Term P) (name : String)
  /-- A function that may call itself, and the rest of the program in which it is in scope. Its
  result type is declared. -/
  | letRec (tag : P) (name : String) (params : List (String × Ty)) (result : Ty)
      (body rest : Term P)

namespace Term

variable {P Q : Type}

/-- Induction on terms, with the hypotheses for arguments and fields given for each of them. -/
@[elab_as_elim, induction_eliminator]
theorem ind {motive : Term P → Prop}
    (literal : ∀ tag value, motive (.literal tag value))
    (cond : ∀ tag test yes no, motive test → motive yes → motive no →
      motive (.cond tag test yes no))
    (add : ∀ tag left right, motive left → motive right → motive (.add tag left right))
    (ref : ∀ tag name, motive (.ref tag name))
    (lambda : ∀ tag params body, motive body → motive (.lambda tag params body))
    (call : ∀ tag callee args, motive callee → (∀ a ∈ args, motive a) →
      motive (.call tag callee args))
    (seq : ∀ tag first rest, motive first → motive rest → motive (.seq tag first rest))
    (const : ∀ tag name init rest, motive init → motive rest → motive (.const tag name init rest))
    (record : ∀ tag fields, (∀ f ∈ fields, motive f.2) → motive (.record tag fields))
    (field : ∀ tag owner name, motive owner → motive (.field tag owner name))
    (letRec : ∀ tag name params result body rest, motive body → motive rest →
      motive (.letRec tag name params result body rest))
    (t : Term P) : motive t :=
  @Term.rec P motive (fun args => ∀ a ∈ args, motive a) (fun fields => ∀ f ∈ fields, motive f.2)
    (fun f => motive f.2)
    literal cond add ref lambda call seq const record field letRec
    (fun _ h => nomatch h)
    (fun _ _ head rest a ha => by
      cases ha with
      | head => exact head
      | tail _ h => exact rest a h)
    (fun _ h => nomatch h)
    (fun _ _ head rest f hf => by
      cases hf with
      | head => exact head
      | tail _ h => exact rest f h)
    (fun _ _ h => h) t

def tag : Term P → P
  | literal p _ | cond p .. | add p .. | ref p _ | lambda p .. | call p .. | seq p .. | const p ..
  | record p _ | field p .. | letRec p .. => p

mutual

def map (f : P → Q) : Term P → Term Q
  | literal p value => literal (f p) value
  | cond p test yes no => cond (f p) (map f test) (map f yes) (map f no)
  | add p left right => add (f p) (map f left) (map f right)
  | ref p name => ref (f p) name
  | lambda p params body => lambda (f p) params (map f body)
  | call p callee args => call (f p) (map f callee) (mapArgs f args)
  | seq p first rest => seq (f p) (map f first) (map f rest)
  | const p name init rest => const (f p) name (map f init) (map f rest)
  | record p fields => record (f p) (mapFields f fields)
  | field p owner name => field (f p) (map f owner) name
  | letRec p name params result body rest =>
      letRec (f p) name params result (map f body) (map f rest)

def mapArgs (f : P → Q) : List (Term P) → List (Term Q)
  | [] => []
  | t :: args => map f t :: mapArgs f args

def mapFields (f : P → Q) : List (String × Term P) → List (String × Term Q)
  | [] => []
  | (name, t) :: fields => (name, map f t) :: mapFields f fields

end

@[simp] theorem mapArgs_eq_map (f : P → Q) (args : List (Term P)) :
    mapArgs f args = List.map (map f) args := by
  induction args with
  | nil => rfl
  | cons t args ih => simp [mapArgs, ih]

@[simp] theorem mapFields_eq_map (f : P → Q) (fields : List (String × Term P)) :
    mapFields f fields = List.map (fun p => (p.1, map f p.2)) fields := by
  induction fields with
  | nil => rfl
  | cons p fields ih => simp [mapFields, ih]

end Term

end StructuralTypes
