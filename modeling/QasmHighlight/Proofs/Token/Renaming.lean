import QasmHighlight.Proofs.Token.GateName

/-!
# Names are compared and nothing else

What a name stands for does not depend on how it is spelled.  If every word is
renamed, reserved words by themselves and different words differently, then all
lexemes keep their classes.  The two runs are in contexts that differ in the names
they hold only, and a name is held exactly if an earlier lexeme defined or declared
it; so the argument is about the earlier lexemes, where an injective renaming keeps
equal texts equal and different texts different.
-/

namespace QasmHighlight

/-- Different words get different names, and reserved words keep theirs. -/
structure IsRenaming (rename : String → String) : Prop where
  injective : Function.Injective rename
  fixes : ∀ word, (Vocabulary.reservedClass? word).isSome = true → rename word = word

def Lexeme.renamed (rename : String → String) (lexeme : Lexeme) : Lexeme :=
  if lexeme.kind = .word then { lexeme with text := rename lexeme.text } else lexeme

section

variable {rename : String → String}

@[simp] theorem Lexeme.kind_renamed (lexeme : Lexeme) :
    (lexeme.renamed rename).kind = lexeme.kind := by
  unfold Lexeme.renamed
  split_ifs <;> rfl

theorem Lexeme.text_renamed {lexeme : Lexeme} (hkind : lexeme.kind = .word) :
    (lexeme.renamed rename).text = rename lexeme.text := by
  rw [Lexeme.renamed, if_pos hkind]

theorem Lexeme.renamed_eq_self {lexeme : Lexeme} (hkind : lexeme.kind ≠ .word) :
    lexeme.renamed rename = lexeme := by
  rw [Lexeme.renamed, if_neg hkind]

variable (hrename : IsRenaming rename)
include hrename

/-- A word that is not reserved cannot take the name of a reserved word, which keeps
it. -/
theorem IsRenaming.reservedClass?_eq (word : String) :
    Vocabulary.reservedClass? (rename word) = Vocabulary.reservedClass? word := by
  by_cases hreserved : (Vocabulary.reservedClass? word).isSome = true
  · rw [hrename.fixes word hreserved]
  · have hnone : (Vocabulary.reservedClass? (rename word)).isSome ≠ true := by
      intro hsome
      have hword : rename word = word := hrename.injective (hrename.fixes _ hsome)
      rw [hword] at hsome
      exact hreserved hsome
    rw [Option.not_isSome_iff_eq_none.1 hreserved, Option.not_isSome_iff_eq_none.1 hnone]

theorem IsRenaming.text_of_reserved {lexeme : Lexeme} (hkind : lexeme.kind = .word)
    {reservedClass : TokenClass}
    (hreserved : Vocabulary.reservedClass? lexeme.text = some reservedClass) :
    (lexeme.renamed rename).text = lexeme.text := by
  rw [Lexeme.text_renamed hkind]
  exact hrename.fixes _ (Option.isSome_iff_exists.2 ⟨reservedClass, hreserved⟩)

theorem IsRenaming.isName_renamed (lexeme : Lexeme) :
    (lexeme.renamed rename).isName = lexeme.isName := by
  by_cases hkind : lexeme.kind = .word
  · simp only [Lexeme.isName, Lexeme.kind_renamed, Lexeme.text_renamed hkind,
      hrename.reservedClass?_eq]
  · rw [Lexeme.renamed_eq_self hkind]

theorem IsRenaming.isOperand_renamed (lexeme : Lexeme) :
    (lexeme.renamed rename).isOperand = lexeme.isOperand := by
  by_cases hkind : lexeme.kind = .word
  · simp only [Lexeme.isOperand, Lexeme.kind_renamed, Lexeme.text_renamed hkind,
      hrename.reservedClass?_eq]
  · rw [Lexeme.renamed_eq_self hkind]

end

/-! ## Contexts -/

def Context.SameApartFromNames (context other : Context) : Prop :=
  ∃ gates scopes, other = { context with gates := gates, scopes := scopes }

section

variable {rename : String → String} (hrename : IsRenaming rename)
include hrename

/-- The names a context holds decide the class of a lexeme only; otherwise the
branches that ask for them leave one context. -/
theorem Context.SameApartFromNames.step {context other : Context}
    (hsame : context.SameApartFromNames other) (lexeme : Lexeme) :
    (context.step lexeme false).2.SameApartFromNames
      (other.step (lexeme.renamed rename) false).2 := by
  obtain ⟨gates, scopes, rfl⟩ := hsame
  by_cases hkind : lexeme.kind = .word
  · have hkind' : (lexeme.renamed rename).kind = .word := (lexeme.kind_renamed).trans hkind
    cases hreserved : Vocabulary.reservedClass? lexeme.text with
    | some reservedClass =>
        have htext := hrename.text_of_reserved hkind hreserved
        have hreserved' := (congrArg Vocabulary.reservedClass? htext).trans hreserved
        rw [step_of_reserved _ hkind hreserved, step_of_reserved _ hkind' hreserved', htext]
        exact ⟨_, _, rfl⟩
    | none =>
        have hname := Lexeme.isName_iff.2 ⟨hkind, hreserved⟩
        have hname' := (hrename.isName_renamed lexeme).trans hname
        rw [step_of_isName _ hname, step_of_isName _ hname']
        unfold name
        dsimp only
        split_ifs <;> exact ⟨_, _, rfl⟩
  · rw [Lexeme.renamed_eq_self hkind]
    unfold Context.step
    cases hother : lexeme.kind with
    | word => exact absurd hother hkind
    | punctuation mark => cases mark <;> exact ⟨_, _, rfl⟩
    | _ => exact ⟨_, _, rfl⟩

theorem contextAt_map_renamed (lexemes : List Lexeme) (place : Nat) :
    (contextAt lexemes place).SameApartFromNames
      (contextAt (lexemes.map (Lexeme.renamed rename)) place) := by
  rw [contextAt_eq_contextAfter, contextAt_eq_contextAfter, ← List.map_take]
  induction lexemes.take place using List.reverseRecOn with
  | nil => exact ⟨_, _, rfl⟩
  | append_singleton before lexeme ih =>
      rw [List.map_append, List.map_singleton, contextAfter_concat, contextAfter_concat]
      exact ih.step hrename lexeme

end

/-! ## Earlier lexemes -/

section

variable {rename : String → String} (lexemes : List Lexeme) (place : Nat)

theorem lastWord?_map_renamed :
    lastWord? (lexemes.map (Lexeme.renamed rename)) = (lastWord? lexemes).map rename := by
  induction lexemes using List.reverseRecOn with
  | nil => rfl
  | append_singleton before lexeme ih =>
      rw [List.map_append, List.map_singleton, lastWord?_concat, lastWord?_concat, ih,
        Lexeme.kind_renamed]
      split_ifs with hkind
      · rw [Lexeme.text_renamed hkind, Option.map_some]
      · rfl

theorem braceDepthAt_map_renamed :
    braceDepthAt (lexemes.map (Lexeme.renamed rename)) place = braceDepthAt lexemes place := by
  unfold braceDepthAt
  rw [← List.map_take, List.foldl_map]
  simp only [Lexeme.kind_renamed]

variable (hrename : IsRenaming rename)
include hrename

theorem lastWord?_eq_gate_iff_renamed :
    lastWord? ((lexemes.map (Lexeme.renamed rename)).take place) = some "gate" ↔
      lastWord? (lexemes.take place) = some "gate" := by
  have hgate : rename "gate" = "gate" := hrename.fixes "gate" (by decide)
  rw [← List.map_take, lastWord?_map_renamed]
  nth_rewrite 1 [← hgate]
  rw [← Option.map_some, (Option.map_injective hrename.injective).eq_iff]

theorem nameAt_renamed_iff (name : String) :
    NameAt (lexemes.map (Lexeme.renamed rename)) place (rename name) ↔
      NameAt lexemes place name := by
  constructor
  · rintro ⟨renamed, hrenamed, hname, htext⟩
    rw [List.getElem?_map] at hrenamed
    obtain ⟨lexeme, hlexeme, rfl⟩ := Option.map_eq_some_iff.1 hrenamed
    rw [hrename.isName_renamed] at hname
    rw [Lexeme.text_renamed (Lexeme.isName_iff.1 hname).1] at htext
    exact ⟨lexeme, hlexeme, hname, hrename.injective htext⟩
  · rintro ⟨lexeme, hlexeme, hname, rfl⟩
    refine ⟨lexeme.renamed rename, ?_, (hrename.isName_renamed lexeme).trans hname,
      Lexeme.text_renamed (Lexeme.isName_iff.1 hname).1⟩
    rw [List.getElem?_map, hlexeme, Option.map_some]

theorem definesGateAt_renamed_iff (name : String) :
    DefinesGateAt (lexemes.map (Lexeme.renamed rename)) place (rename name) ↔
      DefinesGateAt lexemes place name := by
  have hname := nameAt_renamed_iff lexemes place hrename name
  have hgate := lastWord?_eq_gate_iff_renamed lexemes place hrename
  exact ⟨fun h => ⟨hname.1 h.nameAt, hgate.1 h.named⟩,
    fun h => ⟨hname.2 h.nameAt, hgate.2 h.named⟩⟩

theorem declaresAt_renamed_iff (name : String) :
    DeclaresAt (lexemes.map (Lexeme.renamed rename)) place (rename name) ↔
      DeclaresAt lexemes place name := by
  have hname := nameAt_renamed_iff lexemes place hrename name
  have hgate := lastWord?_eq_gate_iff_renamed lexemes place hrename
  obtain ⟨gates, scopes, hcontext⟩ := contextAt_map_renamed hrename lexemes place
  constructor
  · intro hdeclares
    have hexpected := hdeclares.expected
    rw [hcontext] at hexpected
    exact ⟨hname.1 hdeclares.nameAt, hexpected, mt hgate.2 hdeclares.not_named⟩
  · intro hdeclares
    refine ⟨hname.2 hdeclares.nameAt, ?_, mt hgate.1 hdeclares.not_named⟩
    rw [hcontext]
    exact hdeclares.expected

theorem declaredInOpenBlock_renamed_iff (name : String) :
    DeclaredInOpenBlock (lexemes.map (Lexeme.renamed rename)) place (rename name) ↔
      DeclaredInOpenBlock lexemes place name := by
  unfold DeclaredInOpenBlock
  simp only [declaresAt_renamed_iff _ _ hrename, braceDepthAt_map_renamed]

/-! ## Classes -/

theorem contains_gates_renamed (name : String) :
    (contextAt (lexemes.map (Lexeme.renamed rename)) place).gates.contains (rename name) =
      (contextAt lexemes place).gates.contains name := by
  rw [Bool.eq_iff_iff, contains_gates_contextAt_iff, contains_gates_contextAt_iff]
  simp only [definesGateAt_renamed_iff _ _ hrename]

theorem contains_scopes_renamed (name : String) :
    (contextAt (lexemes.map (Lexeme.renamed rename)) place).scopes.contains (rename name) =
      (contextAt lexemes place).scopes.contains name := by
  rw [Bool.eq_iff_iff, contains_scopes_contextAt_iff, contains_scopes_contextAt_iff]
  exact declaredInOpenBlock_renamed_iff lexemes place hrename name

theorem class_step_renamed_of_not_isName {lexeme : Lexeme} (hname : lexeme.isName = false)
    (context other : Context) (call call' : Bool) :
    (other.step (lexeme.renamed rename) call').1 = (context.step lexeme call).1 := by
  cases hkind : lexeme.kind with
  | word =>
      have hkind' : (lexeme.renamed rename).kind = .word := lexeme.kind_renamed.trans hkind
      obtain ⟨reservedClass, hreserved⟩ := Lexeme.exists_reservedClass hkind hname
      have htext := hrename.text_of_reserved hkind hreserved
      have hreserved' := (congrArg Vocabulary.reservedClass? htext).trans hreserved
      rw [other.step_of_reserved hkind' hreserved', context.step_of_reserved hkind hreserved]
  | _ =>
      rw [Lexeme.renamed_eq_self (by simp [hkind])]
      simp [Context.step, hkind]

theorem classAt?_map_renamed :
    classAt? (lexemes.map (Lexeme.renamed rename)) place = classAt? lexemes place := by
  have hget : (lexemes.map (Lexeme.renamed rename))[place]? =
      lexemes[place]?.map (Lexeme.renamed rename) := List.getElem?_map
  cases hlexeme : lexemes[place]? with
  | none =>
      rw [hlexeme] at hget
      rw [classAt?_eq_none hget, classAt?_eq_none hlexeme]
  | some lexeme =>
      rw [hlexeme, Option.map_some] at hget
      rw [classAt?_eq_step hget, classAt?_eq_step hlexeme, Option.some.injEq]
      cases hname : lexeme.isName with
      | false => exact class_step_renamed_of_not_isName hrename hname _ _ _ _
      | true =>
          have hname' := (hrename.isName_renamed lexeme).trans hname
          have htext : (lexeme.renamed rename).text = rename lexeme.text :=
            Lexeme.text_renamed (Lexeme.isName_iff.1 hname).1
          have hcall : (Lookahead.ofLexemes (lexemes.map (Lexeme.renamed rename))).headsCallAt
              place = (Lookahead.ofLexemes lexemes).headsCallAt place := by
            rw [headsCallAt_eq_headsCall hget, headsCallAt_eq_headsCall hlexeme, ← List.map_drop]
            exact headsCall_map Lexeme.kind_renamed hrename.isOperand_renamed _
          have hgates := contains_gates_renamed lexemes place hrename lexeme.text
          have hscopes := contains_scopes_renamed lexemes place hrename lexeme.text
          obtain ⟨gates, scopes, hcontext⟩ := contextAt_map_renamed hrename lexemes place
          rw [Context.class_step_of_isName _ hname', Context.class_step_of_isName _ hname, htext,
            hgates, hscopes, hcall, hcontext]
          simp only [Context.definesGate, Context.declaresRegister, hname, hname']

end

/-- Renaming the words of a document leaves the class of every lexeme.  That a word
that is not reserved gets a name that is not reserved either need not be asked for:
the reserved names are taken. -/
theorem classify_map_renamed {rename : String → String} (hrename : IsRenaming rename)
    (lexemes : List Lexeme) :
    (classify (lexemes.map (Lexeme.renamed rename))).map (·.tokenClass) =
      (classify lexemes).map (·.tokenClass) := by
  apply List.ext_getElem?
  intro place
  rw [List.getElem?_map, List.getElem?_map]
  exact classAt?_map_renamed lexemes place hrename

/-- A gate and the register it is applied to exchange their names. -/
theorem classify_map_renamed_swap :
    IsRenaming (Equiv.swap "a" "b") ∧
      (classify ((scan "gate a q\x7b\x7dqubit b;a b;".toList).lexemes.map
        (Lexeme.renamed (Equiv.swap "a" "b")))).map (·.tokenClass) =
        [.keyword, .gate, .identifier, .punctuation, .punctuation, .keyword, .identifier,
          .punctuation, .gate, .register, .punctuation] := by
  have hrename : IsRenaming (Equiv.swap "a" "b") := by
    refine ⟨(Equiv.swap "a" "b").injective, ?_⟩
    intro word hreserved
    apply Equiv.swap_apply_of_ne_of_ne
    · rintro rfl
      exact absurd hreserved (by decide)
    · rintro rfl
      exact absurd hreserved (by decide)
  refine ⟨hrename, ?_⟩
  have hlexemes : (scan "gate a q\x7b\x7dqubit b;a b;".toList).lexemes =
      [⟨.word, "gate", ⟨1, 0⟩, 4⟩, ⟨.word, "a", ⟨1, 5⟩, 1⟩, ⟨.word, "q", ⟨1, 7⟩, 1⟩,
        ⟨.punctuation .openBrace, "\x7b", ⟨1, 8⟩, 1⟩,
        ⟨.punctuation .closeBrace, "\x7d", ⟨1, 9⟩, 1⟩, ⟨.word, "qubit", ⟨1, 10⟩, 5⟩,
        ⟨.word, "b", ⟨1, 16⟩, 1⟩, ⟨.punctuation .semicolon, ";", ⟨1, 17⟩, 1⟩,
        ⟨.word, "a", ⟨1, 18⟩, 1⟩, ⟨.word, "b", ⟨1, 20⟩, 1⟩,
        ⟨.punctuation .semicolon, ";", ⟨1, 21⟩, 1⟩] := by
    decide +kernel
  have hgate : Vocabulary.reservedClass? "gate" = some .keyword := by decide
  have hqubit : Vocabulary.reservedClass? "qubit" = some .keyword := by decide
  have hnames : Vocabulary.role "gate" = .namesGate := by decide
  have hregister : Vocabulary.role "qubit" = .declaresRegister := by decide
  have ha : Vocabulary.reservedClass? "a" = none := by decide
  have hb : Vocabulary.reservedClass? "b" = none := by decide
  have hq : Vocabulary.reservedClass? "q" = none := by decide
  rw [classify_map_renamed hrename, map_tokenClass_classify, hlexemes]
  simp [classesFrom, headsCall, Context.step, Context.word, Context.name, Context.reserved,
    Context.punctuation, Scopes.contains, Scopes.enter, Scopes.leave, Scopes.declare,
    Lexeme.isComment, Lexeme.isOperand, hgate, hqubit, hnames, hregister, ha, hb, hq]

end QasmHighlight
