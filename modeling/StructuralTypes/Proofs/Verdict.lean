import Mathlib.Tactic
import StructuralTypes.CommandLine.Run
import StructuralTypes.Proofs.Blame
import StructuralTypes.Proofs.Safety
import StructuralTypes.Proofs.Showable

/-!
How a run ends. If the tree file holds a value and the declared types are closed and contractive,
the value is refused by the reader, or the program is accepted, or it is at fault. In the first case
and in the last the run explains itself and ends with status one, as long as the place of the fault
can be shown. Otherwise it is cut short.
-/

namespace StructuralTypes

/-- A program that has been read has a type, or one of its terms is at fault. -/
theorem Tree.check_cases_of_read {tree : Json} {t : Term (Option Span)}
    (hread : Tree.readTerm tree = .ok t) (ht : ∀ u ∈ t.annotations, u.Closed ∧ u.Contractive)
    (rule : CallRule) :
    (∃ T, t.check rule .empty = .ok T) ∨
      ∃ f, t.check rule .empty = .error (.fault f) ∧ f.term ∈ t.subterms := by
  have hregular := Tree.regular_of_readTerm hread
  have hdeclared (u : Ty) (hu : u ∈ t.annotations) : u.Guarded :=
    Ty.guarded_iff.mpr ⟨(ht u hu).1, (ht u hu).2, hregular.types u hu⟩
  have hempty (name : String) (u : Ty) (hu : Scope.empty.resolve name = some u) : u.Guarded := by
    cases hu
  rcases admissible_guarded.check_cases hdeclared hempty rule with
    ⟨T, hT, -⟩ | ⟨f, hf⟩ | ⟨p, fields, hrecord, hrepeated⟩
  · exact .inl ⟨T, hT⟩
  · obtain ⟨path, hpath⟩ := Term.exists_subterm?_of_fault hf
    exact .inr ⟨f, hf, Term.mem_subterms_of_subterm? hpath⟩
  · exact absurd (hregular.names p fields hrecord) hrepeated

namespace CommandLine

def Options.callRule (options : Options) : CallRule :=
  if options.exactCalls then .exact else .subtyping

/-- The source text found under a name; an empty name stands for none. -/
inductive FindsSource (directory : File.Path) (files : File.Files) :
    Option String → Option String → Prop
  | unnamed : FindsSource directory files none none
  | empty : FindsSource directory files (some "") none
  | named {name : String} {bytes : ByteArray} {text : List Char} (hname : name ≠ "")
      (hfile : files (directory.within (.ofString name)) = .ok bytes)
      (htext : File.text? bytes = some text) :
      FindsSource directory files (some name) (some (String.ofList text))

/-- A run finds the JSON text of `tree` in its tree file, and the source text if one is named. A
text that escapes half of a surrogate pair is the text of no `tree`: names of this kind are no
sequences of characters, and nothing is said of a run that finds one. -/
structure Finds (directory : File.Path) (files : File.Files) (options : Options) (tree : Json)
    (source : Option String) : Prop where
  tree : ∃ bytes text, files (directory.within (.ofString options.tree)) = .ok bytes ∧
    File.text? bytes = some text ∧ Json.parse text = .ok tree
  source : FindsSource directory files options.source source

namespace Outcome

structure Accepts (o : Outcome) (t : Ty) : Prop where
  verdict : o.verdict = .status 0
  out : o.out = t.render ++ "\n"

structure Explains (o : Outcome) (explanation : String) : Prop where
  verdict : o.verdict = .status 1
  out : o.out = ""
  err : ∃ before after, o.err = before ++ explanation ++ after
  nonempty : o.err ≠ ""

structure CutShort (o : Outcome) : Prop where
  verdict : ∃ reason, o.verdict = .unshowable reason
  out : o.out = ""

end Outcome

/-! ### Complaints -/

section Complaints

variable {verbose : Bool} {source : Option String} {path : File.Path} {before : String}

theorem complaints_add {issue : Issue} {text : String} (h : issue.text = .ok text) :
    complaints before ((Report.new verbose source (some path)).add issue) =
      ⟨"", before ++ (path.toString ++ "\n" ++ text ++ "\n"), .status 1⟩ := by
  simp [complaints, Report.complain, Report.add, Report.new, Report.sick, Report.printIssues, h]

theorem complaints_add_error {issue : Issue} {reason : Unshowable}
    (h : issue.text = .error reason) :
    complaints before ((Report.new verbose source (some path)).add issue) =
      ⟨"", before ++ (path.toString ++ "\n"), .unshowable reason⟩ := by
  simp [complaints, Report.complain, Report.add, Report.new, Report.sick, Report.printIssues, h]

/-- An issue that begins with an explanation is printed with it. -/
theorem complaints_explains {issue : Issue} {explanation : String} (rest : String)
    (h : issue.text = .ok (explanation ++ rest)) :
    (complaints before ((Report.new verbose source (some path)).add issue)).Explains
      explanation := by
  rw [complaints_add h]
  refine ⟨rfl, rfl, ⟨before ++ (path.toString ++ "\n"), rest ++ "\n", ?_⟩, ?_⟩
  · simp [String.append_assoc]
  · simp

theorem complaints_addMalformed (tree : File.Path) (why : String) :
    (complaints before ((Report.new verbose source (some path)).addMalformed tree why)).Explains
      ("Could not make sense of the syntax tree in " ++ tree.toString ++ "\n" ++ why) := by
  refine complaints_explains "" ?_
  rw [String.append_empty]
  rfl

theorem addFault_new (f : Fault (Option Span)) :
    (Report.new verbose source (some path)).addFault f =
      (Report.new verbose source (some path)).add ⟨f.cause.kind ++ ": " ++ f.cause.message,
        [⟨f.term.tag, f.cause.kind, source.map Text.lines⟩], []⟩ := rfl

theorem complaints_addFault_of_showable {f : Fault (Option Span)}
    (h : Showable (source.map Text.lines) f.term.tag) :
    (complaints before ((Report.new verbose source (some path)).addFault f)).Explains
      (f.cause.kind ++ ": " ++ f.cause.message) := by
  obtain ⟨place, hplace⟩ := Callout.exists_illustrate_of_showable f.cause.kind h
  rw [addFault_new]
  refine complaints_explains ("\n" ++ place) ?_
  rw [← String.append_assoc]
  exact Issue.text_ok _ hplace

theorem complaints_addFault_of_not_showable {f : Fault (Option Span)}
    (h : ¬ Showable (source.map Text.lines) f.term.tag) :
    (complaints before ((Report.new verbose source (some path)).addFault f)).CutShort := by
  cases hplace : Callout.illustrate ⟨f.term.tag, f.cause.kind, source.map Text.lines⟩ with
  | ok place => exact absurd (Callout.showable_of_illustrate hplace) h
  | error reason =>
      rw [addFault_new, complaints_add_error (Issue.text_error _ hplace)]
      exact ⟨⟨reason, rfl⟩, rfl⟩

end Complaints

/-! ### Runs -/

section Runs

variable {directory : File.Path} {files : File.Files} {options : Options} {tree : Json}
  {source : Option String}

theorem text?_toUTF8 (s : String) :
    File.text? s.toUTF8 = some (Text.uniformNewlines s.toList) := by
  have hs : String.fromUTF8? s.toUTF8 = some s := dif_pos s.isValidUTF8
  rw [File.text?, hs, Option.map_some]

theorem finds_alone {json : String} {tree : Json}
    (htree : Json.parse (Text.uniformNewlines json.toList) = .ok tree) (name : String)
    (verbose exactCalls : Bool) :
    Finds directory (fun _ => .ok json.toUTF8) ⟨name, none, verbose, exactCalls⟩ tree none :=
  ⟨⟨json.toUTF8, _, rfl, text?_toUTF8 json, htree⟩, .unnamed⟩

theorem sourceText_eq_ok {name : Option String} (h : FindsSource directory files name source) :
    sourceText directory files name = .ok source := by
  cases h with
  | unnamed => rfl
  | empty => rfl
  | named hname hfile htext => simp [sourceText, hfile, htext]

theorem load_eq {bytes : ByteArray} {text : List Char} (htext : File.text? bytes = some text)
    (htree : Json.parse text = .ok tree) :
    Tree.load bytes = (Tree.readTerm tree).mapError .unread := by
  simp only [Tree.load, htext, htree]

theorem run_of_malformed (h : Finds directory files options tree source) {e : Tree.Malformed}
    (hread : Tree.readTerm tree = .error (.malformed e)) :
    ∃ before, run directory files options =
      complaints before ((Report.new options.verbose source (some options.subject)).addMalformed
        (directory.within (.ofString options.tree)) e.message) := by
  obtain ⟨⟨bytes, text, hfile, htext, htree⟩, hsource⟩ := h
  have hload : Tree.load bytes = .error (.unread (.malformed e)) := by
    rw [load_eq htext htree, hread]
    rfl
  simp only [run, sourceText_eq_ok hsource, checkFile, hfile, hload, refusal]
  exact ⟨_, rfl⟩

theorem run_of_read (h : Finds directory files options tree source) {t : Term (Option Span)}
    (hread : Tree.readTerm tree = .ok t) :
    ∃ before, run directory files options = checkProgram options.exactCalls before
      (.new options.verbose source (some options.subject)) t := by
  obtain ⟨⟨bytes, text, hfile, htext, htree⟩, hsource⟩ := h
  have hload : Tree.load bytes = .ok t := by
    rw [load_eq htext htree, hread]
    rfl
  simp only [run, sourceText_eq_ok hsource, checkFile, hfile, hload]
  exact ⟨_, rfl⟩

theorem checkProgram_accepts {before : String} {report : Report} {t : Term (Option Span)} {T : Ty}
    (hT : t.check options.callRule .empty = .ok T) :
    (checkProgram options.exactCalls before report t).Accepts T := by
  rw [Options.callRule] at hT
  rw [checkProgram, hT]
  exact ⟨rfl, rfl⟩

theorem checkProgram_eq_complaints {before : String} {report : Report} {t : Term (Option Span)}
    {f : Fault (Option Span)} (hf : t.check options.callRule .empty = .error (.fault f)) :
    checkProgram options.exactCalls before report t = complaints before (report.addFault f) := by
  rw [Options.callRule] at hf
  rw [checkProgram, hf]

/-- A run whose tree is found, with closed and contractive types declared in it, ends in one of
three ways. The tree is malformed and the run explains why; the program has a type and the run
accepts it; or one of its terms is at fault, and the run explains the fault if the place of the term
can be shown and is cut short if not. Absent places and places of four integers can be shown. -/
theorem run_accepts_or_explains (h : Finds directory files options tree source)
    (hdeclared : ∀ t, Tree.readTerm tree = .ok t →
      ∀ u ∈ t.annotations, u.Closed ∧ u.Contractive) :
    let outcome := run directory files options
    let path := directory.within (.ofString options.tree)
    let lines := source.map Text.lines
    (∃ e, Tree.readTerm tree = .error (.malformed e) ∧ outcome.Explains
      ("Could not make sense of the syntax tree in " ++ path.toString ++ "\n" ++ e.message)) ∨
    ∃ t, Tree.readTerm tree = .ok t ∧
      ((∃ T, t.check options.callRule .empty = .ok T ∧ outcome.Accepts T) ∨
      ∃ f, t.check options.callRule .empty = .error (.fault f) ∧ f.term ∈ t.subterms ∧
        (Showable lines f.term.tag →
          outcome.Explains (f.cause.kind ++ ": " ++ f.cause.message)) ∧
        (¬ Showable lines f.term.tag → outcome.CutShort) ∧
        ((∀ s ∈ t.subterms, Span.Ordinary s.tag) → Showable lines f.term.tag)) := by
  intro outcome path lines
  cases hread : Tree.readTerm tree with
  | error failure =>
      obtain ⟨e, rfl⟩ := (Tree.complains tree).term failure hread
      obtain ⟨before, (hrun : outcome = _)⟩ := run_of_malformed h hread
      refine .inl ⟨e, rfl, ?_⟩
      rw [hrun]
      exact complaints_addMalformed path e.message
  | ok t =>
      obtain ⟨before, (hrun : outcome = _)⟩ := run_of_read h hread
      refine .inr ⟨t, rfl, ?_⟩
      rw [hrun]
      rcases Tree.check_cases_of_read hread (hdeclared t hread) options.callRule with
        ⟨T, hT⟩ | ⟨f, hf, hterm⟩
      · exact .inl ⟨T, hT, checkProgram_accepts hT⟩
      · rw [checkProgram_eq_complaints hf]
        exact .inr ⟨f, hf, hterm, complaints_addFault_of_showable,
          complaints_addFault_of_not_showable,
          fun hordinary => (hordinary f.term hterm).showable lines⟩

/-- The body of a function is a name without a meaning, and nobody knows where it stands. -/
theorem run_accepts_or_explains_function :
    let tree : Json := .obj [("tag", .str "func"),
      ("params", .arr [.obj [("name", .str "n"), ("type", .obj [("tag", .str "Number")])]]),
      ("body", .obj [("tag", .str "var"), ("name", .str "m")])]
    let t : Term (Option Span) := .lambda none [("n", .number)] (.ref none "m")
    let json := "\x7b\"tag\":\"func\"," ++
      "\"params\":[\x7b\"name\":\"n\",\"type\":\x7b\"tag\":\"Number\"\x7d\x7d]," ++
      "\"body\":\x7b\"tag\":\"var\",\"name\":\"m\"\x7d\x7d"
    let files : File.Files := fun _ => .ok json.toUTF8
    let options : Options := ⟨"f.json", none, false, true⟩
    Finds ⟨1, []⟩ files options tree none ∧ Tree.readTerm tree = .ok t ∧
      (∀ u ∈ t.annotations, u.Closed ∧ u.Contractive) ∧
      (run ⟨1, []⟩ files options).Explains "UnknownVariable: I don't see what 'm' refers to." := by
  intro tree t json files options
  have hparse : Json.parse (Text.uniformNewlines json.toList) = .ok tree := by
    simp only [json, String.toList_append]
    cbv
  have hfinds : Finds ⟨1, []⟩ files options tree none := finds_alone hparse "f.json" false true
  have hread : Tree.readTerm tree = .ok t := rfl
  have ht : ∀ u ∈ t.annotations, u.Closed ∧ u.Contractive := by decide
  refine ⟨hfinds, hread, ht, ?_⟩
  have hcheck : t.check options.callRule .empty =
      .error (.fault ⟨.ref none "m", .unknownVariable "m"⟩) := rfl
  have hdeclared (t' : Term (Option Span)) (ht' : Tree.readTerm tree = .ok t') :
      ∀ u ∈ t'.annotations, u.Closed ∧ u.Contractive := by
    cases hread.symm.trans ht'
    exact ht
  rcases run_accepts_or_explains hfinds hdeclared with
    ⟨e, he, -⟩ | ⟨t', ht', ⟨T, hT, -⟩ | ⟨f, hf, -, hexplains, -⟩⟩
  · cases hread.symm.trans he
  · cases hread.symm.trans ht'
    cases hcheck.symm.trans hT
  · cases hread.symm.trans ht'
    cases hcheck.symm.trans hf
    exact hexplains .absent

/-- Coordinates that are no numbers are taken from the tree, and cut the run short. -/
theorem run_cut_short_nowhere :
    let somewhere : Json := .obj [("line", .str "?"), ("column", .str "?")]
    let tree : Json := .obj [("tag", .str "var"), ("name", .str "x"),
      ("loc", .obj [("start", somewhere), ("end", somewhere)])]
    let t : Term (Option Span) := .ref (some ⟨⟨.str "?", .str "?"⟩, ⟨.str "?", .str "?"⟩⟩) "x"
    let json := "\x7b\"tag\":\"var\",\"name\":\"x\",\"loc\":\x7b" ++
      "\"start\":\x7b\"line\":\"?\",\"column\":\"?\"\x7d," ++
      "\"end\":\x7b\"line\":\"?\",\"column\":\"?\"\x7d\x7d\x7d"
    let files : File.Files := fun _ => .ok json.toUTF8
    let options : Options := ⟨"x.json", none, false, false⟩
    Finds ⟨1, []⟩ files options tree none ∧ Tree.readTerm tree = .ok t ∧ t.annotations = [] ∧
      (run ⟨1, []⟩ files options).verdict = .unshowable .notNumeric := by
  intro somewhere tree t json files options
  have hparse : Json.parse (Text.uniformNewlines json.toList) = .ok tree := by
    simp only [json, String.toList_append]
    cbv
  have hfinds : Finds ⟨1, []⟩ files options tree none := finds_alone hparse "x.json" false false
  have hread : Tree.readTerm tree = .ok t := rfl
  have hcheck : t.check options.callRule .empty =
      .error (.fault ⟨t, .unknownVariable "x"⟩) := rfl
  obtain ⟨before, hrun⟩ := run_of_read hfinds hread
  refine ⟨hfinds, hread, rfl, ?_⟩
  rw [hrun, checkProgram_eq_complaints hcheck, addFault_new,
    complaints_add_error (Issue.text_error _ rfl)]

end Runs

end CommandLine

end StructuralTypes
