import QasmHighlight.Proofs.Token.RegisterScope

/-!
# Which words stand for gates

A name is a gate where `gate` defines it.  Elsewhere it is a gate if it was defined
before, in whatever block, or if it stands at the head of a statement and heads a
call; the place where it is declared as a register is the one exception.  Reserved
words keep their own classes and are never taken for gates or registers.
-/

namespace QasmHighlight

private theorem Vocabulary.reservedClass?_ne_gate (word : String) :
    Vocabulary.reservedClass? word ≠ some .gate := by
  intro hgate
  obtain ⟨group, hgroup, hclass⟩ := Option.map_eq_some_iff.1 hgate
  have hall : ∀ group ∈ groups, group.1 ≠ TokenClass.gate := by decide
  exact hall group (List.mem_of_find?_eq_some hgroup) hclass

theorem NameAt.reservedClass?_eq_none {lexemes : List Lexeme} {place : Nat} {name : String}
    (hname : NameAt lexemes place name) : Vocabulary.reservedClass? name = none := by
  obtain ⟨lexeme, _, hisName, rfl⟩ := hname
  exact (Lexeme.isName_iff.1 hisName).2

namespace Context

theorem isName_of_class_step_eq_gate {context : Context} {lexeme : Lexeme} {call : Bool}
    (hgate : (context.step lexeme call).1 = .gate) : lexeme.isName = true := by
  cases hkind : lexeme.kind with
  | word =>
      cases hreserved : Vocabulary.reservedClass? lexeme.text with
      | some reservedClass =>
          rw [context.step_of_reserved hkind hreserved] at hgate
          cases hgate
          exact absurd hreserved (Vocabulary.reservedClass?_ne_gate lexeme.text)
      | none => exact Lexeme.isName_iff.2 ⟨hkind, hreserved⟩
  | _ => simp [step, hkind] at hgate

theorem class_step_eq_gate_iff (context : Context) (lexeme : Lexeme) (call : Bool) :
    (context.step lexeme call).1 = .gate ↔
      lexeme.isName = true ∧
        (context.namingGate = true ∨
          (¬ context.declaresRegister lexeme = true ∧
            (context.gates.contains lexeme.text = true ∨
              (context.atHead = true ∧ call = true)))) := by
  constructor
  · intro hgate
    have hname := isName_of_class_step_eq_gate hgate
    rw [context.class_step_of_isName hname] at hgate
    refine ⟨hname, ?_⟩
    split_ifs at hgate <;> simp_all [definesGate]
  · rintro ⟨hname, hcases⟩
    rw [context.class_step_of_isName hname]
    split_ifs <;> simp_all [definesGate]

end Context

section

variable {lexemes : List Lexeme} {place : Nat}

theorem contains_gates_contextAt_succ (name : String) :
    (contextAt lexemes (place + 1)).gates.contains name = true ↔
      (contextAt lexemes place).gates.contains name = true ∨ DefinesGateAt lexemes place name := by
  cases hlexeme : lexemes[place]? with
  | none =>
      have hnot : ¬ DefinesGateAt lexemes place name := fun hdefines =>
        not_nameAt hlexeme name hdefines.nameAt
      rw [contextAt_succ_of_none hlexeme]
      simp only [hnot, or_false]
  | some lexeme =>
      rw [contextAt_succ hlexeme, Context.gates_step, definesGateAt_iff hlexeme]
      split_ifs with hdefines
      · simp [hdefines, or_comm]
      · simp [hdefines]

/-- A gate stays known once it is defined, whatever blocks are closed. -/
theorem contains_gates_contextAt_iff (name : String) :
    (contextAt lexemes place).gates.contains name = true ↔
      ∃ site < place, DefinesGateAt lexemes site name := by
  induction place with
  | zero => simp
  | succ place ih => rw [contains_gates_contextAt_succ, ih, Nat.exists_lt_succ_right]

theorem contains_gates_contextAt_of_reserved {word : String} {reservedClass : TokenClass}
    (hreserved : Vocabulary.reservedClass? word = some reservedClass) :
    (contextAt lexemes place).gates.contains word = false := by
  apply eq_false_of_ne_true
  intro hcontains
  obtain ⟨site, _, hdefines⟩ := (contains_gates_contextAt_iff word).1 hcontains
  cases hdefines.nameAt.reservedClass?_eq_none.symm.trans hreserved

theorem contains_scopes_contextAt_of_reserved {word : String} {reservedClass : TokenClass}
    (hreserved : Vocabulary.reservedClass? word = some reservedClass) :
    (contextAt lexemes place).scopes.contains word = false := by
  apply eq_false_of_ne_true
  intro hcontains
  obtain ⟨site, _, hdeclares, _⟩ := (contains_scopes_contextAt_iff lexemes place word).1 hcontains
  cases hdeclares.nameAt.reservedClass?_eq_none.symm.trans hreserved

theorem classAt?_eq_gate_iff (lexemes : List Lexeme) (place : Nat) :
    classAt? lexemes place = some .gate ↔
      ∃ name, NameAt lexemes place name ∧
        (lastWord? (lexemes.take place) = some "gate" ∨
          (¬ DeclaresAt lexemes place name ∧
            ((∃ site < place, DefinesGateAt lexemes site name) ∨
              ((contextAt lexemes place).atHead = true ∧
                (Lookahead.ofLexemes lexemes).headsCallAt place = true)))) := by
  cases hlexeme : lexemes[place]? with
  | none => simp [classAt?_eq_none hlexeme, not_nameAt hlexeme]
  | some lexeme =>
      rw [classAt?_eq_step hlexeme, Option.some.injEq, Context.class_step_eq_gate_iff]
      simp only [nameAt_iff hlexeme, declaresAt_iff hlexeme, ← contains_gates_contextAt_iff,
        ← namingGate_contextAt_iff]
      constructor
      · rintro ⟨hname, hcases⟩
        exact ⟨lexeme.text, ⟨hname, rfl⟩, by simpa using hcases⟩
      · rintro ⟨name, ⟨hname, rfl⟩, hcases⟩
        exact ⟨hname, by simpa using hcases⟩

end

/-- A lexeme is a gate exactly if it is a name that `gate` defines, or a name that
does not declare a register and that was defined before or heads a call at the head
of a statement.  So a defined gate is one wherever it is used later, and a reserved
word has its own class and is neither a known gate nor a known register. -/
theorem classAt?_eq_gate_iff_defined_or_called (lexemes : List Lexeme) (place : Nat) :
    (classAt? lexemes place = some .gate ↔
      ∃ name, NameAt lexemes place name ∧
        (lastWord? (lexemes.take place) = some "gate" ∨
          (¬ DeclaresAt lexemes place name ∧
            ((∃ site < place, DefinesGateAt lexemes site name) ∨
              ((contextAt lexemes place).atHead = true ∧
                (Lookahead.ofLexemes lexemes).headsCallAt place = true))))) ∧
    (∀ name site, site < place → DefinesGateAt lexemes site name → NameAt lexemes place name →
      ¬ DeclaresAt lexemes place name → classAt? lexemes place = some .gate) ∧
    ∀ word reservedClass, Vocabulary.reservedClass? word = some reservedClass →
      (lexemes[place]?.map Lexeme.spelling = some (.word, word) →
        classAt? lexemes place = some reservedClass) ∧
      (contextAt lexemes place).gates.contains word = false ∧
      (contextAt lexemes place).scopes.contains word = false := by
  have hiff := classAt?_eq_gate_iff lexemes place
  refine ⟨hiff, ?_, ?_⟩
  · intro name site hsite hdefines hname hdeclares
    exact hiff.2 ⟨name, hname, .inr ⟨hdeclares, .inl ⟨site, hsite, hdefines⟩⟩⟩
  · intro word reservedClass hreserved
    refine ⟨?_, contains_gates_contextAt_of_reserved hreserved,
      contains_scopes_contextAt_of_reserved hreserved⟩
    intro hspelling
    obtain ⟨lexeme, hlexeme, hword⟩ := Option.map_eq_some_iff.1 hspelling
    obtain ⟨hkind, rfl⟩ := Prod.mk.inj hword
    rw [classAt?_eq_step hlexeme, Context.step_of_reserved _ hkind hreserved]

/-- A gate that is also declared as a register, in a block closed since. -/
theorem classAt?_eq_gate_iff_after_register :
    ∃ lexemes, (scan "gate g a\x7bqubit g;\x7dh g;".toList).lexemes = lexemes ∧
      DefinesGateAt lexemes 1 "g" ∧ DeclaresAt lexemes 5 "g" ∧
      classAt? lexemes 5 ≠ some .gate ∧ NameAt lexemes 9 "g" ∧ ¬ DeclaresAt lexemes 9 "g" ∧
      classAt? lexemes 9 = some .gate ∧
      Vocabulary.reservedClass? "h" = some .builtinGate ∧
      classAt? lexemes 8 = some .builtinGate := by
  have hlexemes : (scan "gate g a\x7bqubit g;\x7dh g;".toList).lexemes =
      [⟨.word, "gate", ⟨1, 0⟩, 4⟩, ⟨.word, "g", ⟨1, 5⟩, 1⟩, ⟨.word, "a", ⟨1, 7⟩, 1⟩,
        ⟨.punctuation .openBrace, "\x7b", ⟨1, 8⟩, 1⟩, ⟨.word, "qubit", ⟨1, 9⟩, 5⟩,
        ⟨.word, "g", ⟨1, 15⟩, 1⟩, ⟨.punctuation .semicolon, ";", ⟨1, 16⟩, 1⟩,
        ⟨.punctuation .closeBrace, "\x7d", ⟨1, 17⟩, 1⟩, ⟨.word, "h", ⟨1, 18⟩, 1⟩,
        ⟨.word, "g", ⟨1, 20⟩, 1⟩, ⟨.punctuation .semicolon, ";", ⟨1, 21⟩, 1⟩] := by
    decide +kernel
  have hgate : Vocabulary.reservedClass? "gate" = some .keyword := by decide
  have hqubit : Vocabulary.reservedClass? "qubit" = some .keyword := by decide
  have hnames : Vocabulary.role "gate" = .namesGate := by decide
  have hregister : Vocabulary.role "qubit" = .declaresRegister := by decide
  have hg : Vocabulary.reservedClass? "g" = none := by decide
  have ha : Vocabulary.reservedClass? "a" = none := by decide
  refine ⟨_, rfl, ?_⟩
  generalize (scan "gate g a\x7bqubit g;\x7dh g;".toList).lexemes = lexemes at hlexemes ⊢
  have hdefines : DefinesGateAt lexemes 1 "g" := by
    subst hlexemes
    exact ⟨⟨⟨.word, "g", ⟨1, 5⟩, 1⟩, rfl, by decide, rfl⟩, by decide⟩
  have hdeclares : DeclaresAt lexemes 5 "g" := by
    subst hlexemes
    refine ⟨⟨⟨.word, "g", ⟨1, 15⟩, 1⟩, rfl, by decide, rfl⟩, ?_, ?_⟩
    · rw [contextAt_eq_contextAfter]
      simp [contextAfter, headsCall, Context.step, Context.word, Context.name, Context.reserved,
        Context.punctuation, Scopes.contains, Lexeme.isComment, Lexeme.isOperand,
        hgate, hqubit, hnames, hregister, hg, ha]
    · decide
  have huse : NameAt lexemes 9 "g" := by
    subst hlexemes
    exact ⟨⟨.word, "g", ⟨1, 20⟩, 1⟩, rfl, by decide, rfl⟩
  have hnot : ¬ DeclaresAt lexemes 9 "g" := by
    intro hsite
    have hidle : (contextAt lexemes 9).declaring = none := by
      subst hlexemes
      decide +kernel
    cases hidle.symm.trans hsite.expected
  have hidentifier : classAt? lexemes 5 = some .identifier := by
    rw [hlexemes, classAt?_eq_getElem?]
    simp [classesFrom, headsCall, Context.step, Context.word, Context.name, Context.reserved,
      Context.punctuation, Scopes.contains, Lexeme.isComment, Lexeme.isOperand,
      hgate, hqubit, hnames, hregister, hg, ha]
  have hh : lexemes[8]?.map Lexeme.spelling = some (.word, "h") := by
    subst hlexemes
    decide +kernel
  have hreserved : Vocabulary.reservedClass? "h" = some .builtinGate := by decide
  obtain ⟨_, hlater, _⟩ := classAt?_eq_gate_iff_defined_or_called lexemes 9
  obtain ⟨_, _, hword⟩ := classAt?_eq_gate_iff_defined_or_called lexemes 8
  refine ⟨hdefines, hdeclares, ?_, huse, hnot, ?_, hreserved, ?_⟩
  · rw [hidentifier]
    decide
  · exact hlater "g" 1 (by decide) hdefines huse hnot
  · exact (hword "h" .builtinGate hreserved).1 hh

end QasmHighlight
