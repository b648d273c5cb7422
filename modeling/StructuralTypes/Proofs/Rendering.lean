import StructuralTypes.Ty.Unfolding

/-!
The notation of types can be read in one way only. Nothing closes the result of a function or the
body of a binder, and both stand inside lists of parameters and of fields, so the text of a type
does not show where it ends; what follows it does. A name ends where no character of a name follows,
and everything else is told by its first characters. So two types that begin one text are the same
type, if what follows them there does not go on with a name (`separable`).
-/

namespace StructuralTypes.Ty

/-! ### Names -/

def nameChar (c : Char) : Bool := c.isAlphanum || c == '_' || c == '$'

/-- A name that the notation has no other use for. -/
def Plain (name : String) : Prop :=
  name ≠ "" ∧ (∀ c ∈ name.toList, nameChar c = true) ∧ name ∉ ["boolean", "number", "mu"]

mutual

def PlainNames : Ty → Prop
  | boolean => True
  | number => True
  | func params result => PlainNamesRow params ∧ PlainNames result
  | object fields => PlainNamesRow fields
  | mu x body => Plain x ∧ PlainNames body
  | var x => Plain x

def PlainNamesRow : Row → Prop
  | [] => True
  | (name, t) :: row => Plain name ∧ PlainNames t ∧ PlainNamesRow row

end

instance (name : String) : Decidable (Plain name) :=
  decidable_of_decidable_of_iff
    (p := name ≠ "" ∧ name.toList.all nameChar = true ∧ name ∉ ["boolean", "number", "mu"])
    (by rw [List.all_eq_true]; rfl)

mutual

def decPlainNames : (t : Ty) → Decidable t.PlainNames
  | boolean => isTrue trivial
  | number => isTrue trivial
  | func params result => @instDecidableAnd _ _ (decPlainNamesRow params) (decPlainNames result)
  | object fields => decPlainNamesRow fields
  | mu x body => @instDecidableAnd _ _ (inferInstanceAs (Decidable (Plain x))) (decPlainNames body)
  | var x => inferInstanceAs (Decidable (Plain x))

def decPlainNamesRow : (row : Row) → Decidable (PlainNamesRow row)
  | [] => isTrue trivial
  | (name, t) :: row =>
      @instDecidableAnd _ _ (inferInstanceAs (Decidable (Plain name)))
        (@instDecidableAnd _ _ (decPlainNames t) (decPlainNamesRow row))

end

instance (t : Ty) : Decidable t.PlainNames := decPlainNames t

/-- The text does not go on with a name. -/
def EndsName (text : List Char) : Prop := ∀ c ∈ text.head?, nameChar c = false

@[simp] theorem endsName_nil : EndsName [] := fun _ hc => nomatch hc

@[simp] theorem endsName_cons {c : Char} {text : List Char} :
    EndsName (c :: text) ↔ nameChar c = false := by
  simp [EndsName]

theorem EndsName.takeWhile_eq_nil {text : List Char} (h : EndsName text) :
    text.takeWhile nameChar = [] := by
  cases text with
  | nil => rfl
  | cons c text =>
      rw [endsName_cons] at h
      simp [h]

theorem Plain.takeWhile_eq {x : String} (hx : Plain x) {text : List Char} (h : EndsName text) :
    (x.toList ++ text).takeWhile nameChar = x.toList := by
  rw [List.takeWhile_append_of_pos hx.2.1, h.takeWhile_eq_nil, List.append_nil]

/-- Names that begin one text are the same if both end there. -/
theorem Plain.append_inj {x y : String} {k k' : List Char} (hx : Plain x) (hy : Plain y)
    (hk : EndsName k) (hk' : EndsName k') (h : x.toList ++ k = y.toList ++ k') :
    x = y ∧ k = k' := by
  have hword : x.toList = y.toList := by
    rw [← hx.takeWhile_eq hk, h, hy.takeWhile_eq hk']
  rw [hword] at h
  exact ⟨String.toList_inj.mp hword, List.append_cancel_left h⟩

theorem Plain.exists_cons {x : String} (hx : Plain x) :
    ∃ c text, x.toList = c :: text ∧ nameChar c = true := by
  cases htext : x.toList with
  | nil => exact absurd (String.toList_eq_nil_iff.mp htext) hx.1
  | cons c text => exact ⟨c, text, rfl, hx.2.1 c (by simp [htext])⟩

/-! ### What a text begins with -/

inductive Form where
  | boolean
  | number
  | func
  | object
  | mu
  | var

def form : Ty → Form
  | boolean => .boolean
  | number => .number
  | func _ _ => .func
  | object _ => .object
  | mu _ _ => .mu
  | var _ => .var

/-- The form that the first word of a text shows, or its first character if there is no word. -/
def formOf (text : List Char) : Form :=
  let word := text.takeWhile nameChar
  if word = [] then
    if text.head? = some '(' then .func else .object
  else if word = "boolean".toList then .boolean
  else if word = "number".toList then .number
  else if word = "mu".toList then .mu
  else .var

theorem formOf_render {t : Ty} {k : List Char} (ht : t.PlainNames) (hk : EndsName k) :
    formOf (t.render.toList ++ k) = t.form := by
  cases t with
  | boolean => simp [formOf, render, nameChar, hk.takeWhile_eq_nil, form]
  | number => simp [formOf, render, nameChar, hk.takeWhile_eq_nil, form]
  | func params result => simp [formOf, render, nameChar, form]
  | object fields => cases fields <;> simp [formOf, render, nameChar, form]
  | mu x body => simp [formOf, render, nameChar, form]
  | var x =>
      have hword := Plain.takeWhile_eq ht hk
      obtain ⟨hempty, -, hreserved⟩ := ht
      simp only [List.mem_cons, List.not_mem_nil, or_false, not_or] at hreserved
      simp only [formOf, render, hword, String.toList_eq_nil_iff, String.toList_inj, hempty,
        hreserved, if_false, form]

/-! ### Rows -/

def renderRest (separator : String) : Row → List Char
  | [] => []
  | m :: row => separator.toList ++ (renderRow separator (m :: row)).toList

theorem toList_renderRow_cons (separator : String) (p : String × Ty) (row : Row) :
    (renderRow separator (p :: row)).toList =
      p.1.toList ++ ':' :: ' ' :: (p.2.render.toList ++ renderRest separator row) := by
  cases row <;> simp [renderRow, renderRest]

/-- A type that begins a text as `a` does, both up to where a name can end, is `a`. -/
def Separable (a : Ty) : Prop :=
  ∀ (b : Ty) (k k' : List Char), a.PlainNames → b.PlainNames → EndsName k → EndsName k' →
    a.render.toList ++ k = b.render.toList ++ k' → a = b ∧ k = k'

/-- Members end at the separator, the last one at the closing text, and the first characters of
these tell them apart. -/
structure Delimits (separator : String) (closing : List Char) : Prop where
  separator_endsName (text : List Char) : EndsName (separator.toList ++ text)
  closing_endsName (text : List Char) : EndsName (closing ++ text)
  ne (text text' : List Char) : separator.toList ++ text ≠ closing ++ text'

theorem Delimits.endsName_rest {separator : String} {closing : List Char}
    (hd : Delimits separator closing) (row : Row) (k : List Char) :
    EndsName (renderRest separator row ++ (closing ++ k)) := by
  cases row with
  | nil => exact hd.closing_endsName k
  | cons m row =>
      rw [renderRest, List.append_assoc]
      exact hd.separator_endsName _

/-- Rows that begin one text have the same first member. -/
theorem Delimits.first_append_inj {separator : String} {closing : List Char}
    (hd : Delimits separator closing) {p q : String × Ty} {row row' : Row} {k k' : List Char}
    (hsep : p.2.Separable) (hp : PlainNamesRow (p :: row)) (hq : PlainNamesRow (q :: row'))
    (h : (renderRow separator (p :: row)).toList ++ (closing ++ k) =
      (renderRow separator (q :: row')).toList ++ (closing ++ k')) :
    p = q ∧ renderRest separator row ++ (closing ++ k) =
      renderRest separator row' ++ (closing ++ k') := by
  simp only [toList_renderRow_cons, List.append_assoc, List.cons_append] at h
  have hcolon (text : List Char) : EndsName (':' :: text) := endsName_cons.mpr (by decide)
  obtain ⟨hname, htype⟩ := hp.1.append_inj hq.1 (hcolon _) (hcolon _) h
  simp only [List.cons.injEq, true_and] at htype
  obtain ⟨htype, hrest⟩ := hsep q.2 _ _ hp.2.1 hq.2.1 (hd.endsName_rest row k)
    (hd.endsName_rest row' k') htype
  exact ⟨Prod.ext hname htype, hrest⟩

/-- Rows with a first member that begin one text are the same if both are closed there. -/
theorem Delimits.renderRow_append_inj {separator : String} {closing : List Char}
    (hd : Delimits separator closing) {p q : String × Ty} {row row' : Row} {k k' : List Char}
    (hsep : ∀ r ∈ p :: row, r.2.Separable) (hp : PlainNamesRow (p :: row))
    (hq : PlainNamesRow (q :: row'))
    (h : (renderRow separator (p :: row)).toList ++ (closing ++ k) =
      (renderRow separator (q :: row')).toList ++ (closing ++ k')) :
    p :: row = q :: row' ∧ k = k' := by
  induction row generalizing p q row' with
  | nil =>
      obtain ⟨rfl, hrest⟩ := hd.first_append_inj (hsep p List.mem_cons_self) hp hq h
      cases row' with
      | nil => exact ⟨rfl, List.append_cancel_left hrest⟩
      | cons m row' =>
          rw [renderRest, renderRest, List.append_assoc] at hrest
          exact absurd hrest.symm (hd.ne _ _)
  | cons m row ih =>
      obtain ⟨rfl, hrest⟩ := hd.first_append_inj (hsep p List.mem_cons_self) hp hq h
      cases row' with
      | nil =>
          rw [renderRest, renderRest, List.append_assoc] at hrest
          exact absurd hrest (hd.ne _ _)
      | cons m' row' =>
          rw [renderRest, renderRest, List.append_assoc, List.append_assoc] at hrest
          obtain ⟨hrow, hk⟩ := ih (fun r hr => hsep r (List.mem_cons_of_mem p hr)) hp.2.2 hq.2.2
            (List.append_cancel_left hrest)
          exact ⟨congrArg (p :: ·) hrow, hk⟩

theorem delimits_params : Delimits ", " ") => ".toList where
  separator_endsName _ := endsName_cons.mpr (by decide)
  closing_endsName _ := endsName_cons.mpr (by decide)
  ne _ _ := by simp

theorem delimits_fields : Delimits "; " " \x7d".toList where
  separator_endsName _ := endsName_cons.mpr (by decide)
  closing_endsName _ := endsName_cons.mpr (by decide)
  ne _ _ := by simp

/-! ### Types -/

theorem form_eq_of_append_eq {a b : Ty} {k k' : List Char} (ha : a.PlainNames)
    (hb : b.PlainNames) (hk : EndsName k) (hk' : EndsName k')
    (h : a.render.toList ++ k = b.render.toList ++ k') : a.form = b.form := by
  rw [← formOf_render ha hk, h, formOf_render hb hk']

theorem params_append_inj {params params' : Row} {k k' : List Char}
    (hsep : ∀ p ∈ params, p.2.Separable) (hp : PlainNamesRow params) (hp' : PlainNamesRow params')
    (h : (renderRow ", " params).toList ++ (") => ".toList ++ k) =
      (renderRow ", " params').toList ++ (") => ".toList ++ k')) : params = params' ∧ k = k' := by
  -- A list of parameters that is closed at once begins with no name.
  have hempty {q : String × Ty} {row : Row} (hq : PlainNamesRow (q :: row))
      (text text' : List Char) :
      ") => ".toList ++ text ≠ (renderRow ", " (q :: row)).toList ++ text' := by
    obtain ⟨c, rest, hname, hc⟩ := hq.1.exists_cons
    intro h
    rw [toList_renderRow_cons, hname] at h
    obtain ⟨rfl, -⟩ := List.cons.inj h
    exact absurd hc (by decide)
  cases params with
  | nil =>
      cases params' with
      | nil => exact ⟨rfl, List.append_cancel_left h⟩
      | cons q row' => exact absurd h (hempty hp' _ _)
  | cons p row =>
      cases params' with
      | nil => exact absurd h.symm (hempty hp _ _)
      | cons q row' => exact delimits_params.renderRow_append_inj hsep hp hp' h

theorem fields_append_inj {fields fields' : Row} {k k' : List Char}
    (hsep : ∀ f ∈ fields, f.2.Separable) (hf : PlainNamesRow fields) (hf' : PlainNamesRow fields')
    (h : (object fields).render.toList ++ k = (object fields').render.toList ++ k') :
    fields = fields' ∧ k = k' := by
  cases fields with
  | nil =>
      cases fields' with
      | nil => exact ⟨rfl, List.append_cancel_left h⟩
      | cons g row' => simp [render] at h
  | cons f row =>
      cases fields' with
      | nil => simp [render] at h
      | cons g row' =>
          simp only [render, String.toList_append, List.append_assoc] at h
          exact delimits_fields.renderRow_append_inj hsep hf hf' (List.append_cancel_left h)

theorem separable (a : Ty) : a.Separable := by
  -- The induction is over all that may follow, since what ends the type is read with it.
  induction a with
  | boolean =>
      intro b k k' ha hb hk hk' h
      have hform := form_eq_of_append_eq ha hb hk hk' h
      cases b with
      | boolean => exact ⟨rfl, List.append_cancel_left h⟩
      | _ => cases hform
  | number =>
      intro b k k' ha hb hk hk' h
      have hform := form_eq_of_append_eq ha hb hk hk' h
      cases b with
      | number => exact ⟨rfl, List.append_cancel_left h⟩
      | _ => cases hform
  | func params result hparams hresult =>
      intro b k k' ha hb hk hk' h
      have hform := form_eq_of_append_eq ha hb hk hk' h
      cases b with
      | func params' result' =>
          simp only [render, String.toList_append, List.append_assoc] at h
          obtain ⟨rfl, htail⟩ := params_append_inj hparams ha.1 hb.1 (List.append_cancel_left h)
          obtain ⟨rfl, hrest⟩ := hresult result' k k' ha.2 hb.2 hk hk' htail
          exact ⟨rfl, hrest⟩
      | _ => cases hform
  | object fields hfields =>
      intro b k k' ha hb hk hk' h
      have hform := form_eq_of_append_eq ha hb hk hk' h
      cases b with
      | object fields' =>
          obtain ⟨rfl, hrest⟩ := fields_append_inj hfields ha hb h
          exact ⟨rfl, hrest⟩
      | _ => cases hform
  | mu x body ih =>
      intro b k k' ha hb hk hk' h
      have hform := form_eq_of_append_eq ha hb hk hk' h
      cases b with
      | mu y body' =>
          simp only [render, String.toList_append, List.append_assoc] at h
          have hdot (text : List Char) : EndsName (". ".toList ++ text) :=
            endsName_cons.mpr (by decide)
          obtain ⟨rfl, htail⟩ := ha.1.append_inj hb.1 (hdot _) (hdot _) (List.append_cancel_left h)
          obtain ⟨rfl, hrest⟩ := ih body' k k' ha.2 hb.2 hk hk' (List.append_cancel_left htail)
          exact ⟨rfl, hrest⟩
      | _ => cases hform
  | var x =>
      intro b k k' ha hb hk hk' h
      have hform := form_eq_of_append_eq ha hb hk hk' h
      cases b with
      | var y =>
          obtain ⟨rfl, hrest⟩ := Plain.append_inj ha hb hk hk' h
          exact ⟨rfl, hrest⟩
      | _ => cases hform

/-- Types with plain names are told apart by their notation. -/
theorem eq_of_render_eq {a b : Ty} (ha : a.PlainNames) (hb : b.PlainNames)
    (h : a.render = b.render) : a = b := by
  have htext : a.render.toList ++ [] = b.render.toList ++ [] := by rw [h]
  exact (separable a b [] [] ha hb endsName_nil endsName_nil htext).1

/-- Functions and binders, which nothing closes, stand inside lists with more members behind. -/
theorem eq_of_render_eq_unrolled :
    let body := func [("f", func [] (var "X")), ("$1", number)]
      (mu "Y_" (object [("m", func [("x", number)] (var "X")), ("n", object []), ("o", var "Y_")]))
    let a := unroll "X" body
    let b := func [("f", func [] (mu "X" body)), ("$1", number)]
      (mu "Y_" (object [("m", func [("x", number)] (mu "X" body)), ("n", object []),
        ("o", var "Y_")]))
    a.PlainNames ∧ b.PlainNames ∧ a.render = b.render ∧ a = b := by
  intro body a b
  have ha : a.PlainNames := by decide
  have hb : b.PlainNames := by decide
  have h : a.render = b.render := by simp [a, b, body, unroll, subst]
  exact ⟨ha, hb, h, eq_of_render_eq ha hb h⟩

end StructuralTypes.Ty
