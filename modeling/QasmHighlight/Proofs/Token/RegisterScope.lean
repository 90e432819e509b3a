import QasmHighlight.Proofs.Token.History

/-!
# Registers and open blocks

The registers that are declared in the open blocks are kept block by block, one
set of names for each open brace and one for the document.  A set is dropped when
its block is closed.  The statement below does without the sets: a name stands for
a register exactly if it was declared and the block of its declaration has stayed
open since, that is if the number of open braces has not fallen below what it was
at the declaration.
-/

namespace QasmHighlight

/-! ## The blocks one by one -/

namespace Scopes

/-- The names declared in each open block, the document first. -/
def blocks (scopes : Scopes) : List Names :=
  scopes.enclosing.reverse ++ [scopes.innermost]

/-- A register of that name is declared in the block at the given level. -/
def HoldsAt (scopes : Scopes) (level : Nat) (name : String) : Prop :=
  ∃ names, scopes.blocks[level]? = some names ∧ names.contains name = true

@[simp] theorem length_blocks (scopes : Scopes) :
    scopes.blocks.length = scopes.enclosing.length + 1 := by
  simp [blocks]

theorem contains_iff_exists_holdsAt (scopes : Scopes) (name : String) :
    scopes.contains name = true ↔ ∃ level, scopes.HoldsAt level name := by
  have hany : scopes.contains name = scopes.blocks.any (·.contains name) := by
    simp [contains, blocks, Bool.or_comm]
  rw [hany, List.any_eq_true]
  constructor
  · rintro ⟨names, hnames, hname⟩
    obtain ⟨level, hlevel⟩ := List.mem_iff_getElem?.1 hnames
    exact ⟨level, names, hlevel, hname⟩
  · rintro ⟨level, names, hlevel, hname⟩
    exact ⟨names, List.mem_of_getElem? hlevel, hname⟩

section

variable {scopes : Scopes} {level : Nat} {name : String}

theorem HoldsAt.le (hholds : scopes.HoldsAt level name) : level ≤ scopes.enclosing.length := by
  obtain ⟨names, hlevel, _⟩ := hholds
  have hlt := (List.getElem?_eq_some_iff.1 hlevel).1
  rw [length_blocks] at hlt
  exact Nat.le_of_lt_succ hlt

theorem holdsAt_enter : scopes.enter.HoldsAt level name ↔ scopes.HoldsAt level name := by
  have hblocks : scopes.enter.blocks = scopes.blocks ++ [∅] := by simp [enter, blocks]
  unfold HoldsAt
  rw [hblocks, List.getElem?_append]
  split_ifs with hlevel
  · rfl
  · rw [List.getElem?_eq_none (Nat.le_of_not_lt hlevel)]
    cases level - scopes.blocks.length <;> simp

theorem holdsAt_leave :
    scopes.leave.HoldsAt level name ↔
      level ≤ scopes.leave.enclosing.length ∧ scopes.HoldsAt level name := by
  obtain ⟨innermost, enclosing⟩ := scopes
  cases enclosing with
  | nil => exact ⟨fun hholds => ⟨hholds.le, hholds⟩, And.right⟩
  | cons outer more =>
      have hblocks : blocks ⟨innermost, outer :: more⟩ = blocks ⟨outer, more⟩ ++ [innermost] := by
        simp [blocks]
      have hlength : (blocks ⟨outer, more⟩).length = more.length + 1 := length_blocks _
      by_cases hlevel : level < (blocks ⟨outer, more⟩).length
      · have hle : level ≤ more.length := by omega
        simp only [HoldsAt, leave, hblocks, List.getElem?_append_left hlevel, hle, true_and]
      · have hgt : ¬ level ≤ more.length := by omega
        exact ⟨fun hholds => absurd hholds.le hgt, fun hholds => absurd hholds.1 hgt⟩

theorem holdsAt_declare (new : String) :
    (scopes.declare new).HoldsAt level name ↔
      scopes.HoldsAt level name ∨ (level = scopes.enclosing.length ∧ new = name) := by
  unfold HoldsAt
  simp only [blocks, declare, List.getElem?_append, List.length_reverse]
  by_cases hlevel : level < scopes.enclosing.length
  · simp [hlevel, Nat.ne_of_lt hlevel]
  · rcases Nat.eq_or_lt_of_le (Nat.le_of_not_lt hlevel) with rfl | hgt
    · simp [or_comm]
    · have hne : level - scopes.enclosing.length ≠ 0 := by omega
      simp [hlevel, hne, Nat.ne_of_gt hgt]

end

end Scopes

/-! ## Open braces -/

/-- The number of open braces past a lexeme.  A closing brace that closes nothing
does not count. -/
def bracesPast (depth : Nat) : LexemeKind → Nat
  | .punctuation .openBrace => depth + 1
  | .punctuation .closeBrace => depth - 1
  | _ => depth

/-- The number of braces that are open at a place. -/
def braceDepthAt (lexemes : List Lexeme) (place : Nat) : Nat :=
  (lexemes.take place).foldl (fun depth lexeme => bracesPast depth lexeme.kind) 0

theorem Scopes.length_enclosing_past (scopes : Scopes) (kind : LexemeKind) :
    (scopes.past kind).enclosing.length = bracesPast scopes.enclosing.length kind := by
  cases kind with
  | punctuation mark =>
      cases mark with
      | closeBrace =>
          obtain ⟨innermost, enclosing⟩ := scopes
          cases enclosing <;> rfl
      | _ => rfl
  | _ => rfl

theorem Scopes.holdsAt_past {scopes : Scopes} {kind : LexemeKind} {level : Nat} {name : String} :
    (scopes.past kind).HoldsAt level name ↔
      level ≤ (scopes.past kind).enclosing.length ∧ scopes.HoldsAt level name := by
  unfold Scopes.past
  split
  · rw [holdsAt_enter]
    exact ⟨fun hholds => ⟨Nat.le_succ_of_le hholds.le, hholds⟩, And.right⟩
  · exact holdsAt_leave
  · exact ⟨fun hholds => ⟨hholds.le, hholds⟩, And.right⟩

namespace Context

private theorem past_of_declaresRegister {context : Context} {lexeme : Lexeme}
    (hdeclares : context.declaresRegister lexeme = true) (scopes : Scopes) :
    scopes.past lexeme.kind = scopes := by
  have hname : lexeme.isName = true := by
    simp only [declaresRegister, Bool.and_eq_true] at hdeclares
    exact hdeclares.1.1
  rw [(Lexeme.isName_iff.1 hname).1]
  rfl

theorem length_enclosing_step (context : Context) (lexeme : Lexeme) (call : Bool) :
    (context.step lexeme call).2.scopes.enclosing.length =
      bracesPast context.scopes.enclosing.length lexeme.kind := by
  rw [scopes_step, ← Scopes.length_enclosing_past]
  split_ifs with hdeclares
  · rw [past_of_declaresRegister hdeclares]
    rfl
  · rfl

/-- What a block holds after a step it held before or is declared in the step, and
the block is open after the step. -/
theorem holdsAt_step (context : Context) (lexeme : Lexeme) (call : Bool) (level : Nat)
    (name : String) :
    (context.step lexeme call).2.scopes.HoldsAt level name ↔
      level ≤ (context.step lexeme call).2.scopes.enclosing.length ∧
        (context.scopes.HoldsAt level name ∨
          (context.declaresRegister lexeme = true ∧ lexeme.text = name ∧
            level = context.scopes.enclosing.length)) := by
  rw [scopes_step]
  split_ifs with hdeclares
  · rw [Scopes.holdsAt_declare]
    constructor
    · rintro (hholds | ⟨hlevel, htext⟩)
      · exact ⟨hholds.le, .inl hholds⟩
      · exact ⟨hlevel.le, .inr ⟨hdeclares, htext, hlevel⟩⟩
    · rintro ⟨_, hholds | ⟨_, htext, hlevel⟩⟩
      · exact .inl hholds
      · exact .inr ⟨hlevel, htext⟩
  · rw [Scopes.holdsAt_past]
    simp [hdeclares]

end Context

/-! ## Declarations in force -/

theorem length_enclosing_contextAt (lexemes : List Lexeme) (place : Nat) :
    (contextAt lexemes place).scopes.enclosing.length = braceDepthAt lexemes place := by
  unfold braceDepthAt
  rw [contextAt_eq_contextAfter]
  induction lexemes.take place using List.reverseRecOn with
  | nil => rfl
  | append_singleton before lexeme ih =>
      rw [contextAfter_concat, Context.length_enclosing_step, ih, List.foldl_concat]

/-- A declaration before `place` since which at least `level` braces have been open. -/
def DeclaredAtLevel (lexemes : List Lexeme) (place level : Nat) (name : String) : Prop :=
  ∃ site < place, DeclaresAt lexemes site name ∧ braceDepthAt lexemes site = level ∧
    ∀ between, site ≤ between → between ≤ place → level ≤ braceDepthAt lexemes between

section

variable {lexemes : List Lexeme} {place level : Nat} {name : String}

theorem declaredAtLevel_succ :
    DeclaredAtLevel lexemes (place + 1) level name ↔
      level ≤ braceDepthAt lexemes (place + 1) ∧
        (DeclaredAtLevel lexemes place level name ∨
          (DeclaresAt lexemes place name ∧ level = braceDepthAt lexemes place)) := by
  constructor
  · rintro ⟨site, hsite, hdeclares, hlevel, hsince⟩
    refine ⟨hsince (place + 1) (Nat.le_of_lt hsite) (Nat.le_refl _), ?_⟩
    rcases Nat.lt_or_eq_of_le (Nat.le_of_lt_succ hsite) with hsite | rfl
    · refine .inl ⟨site, hsite, hdeclares, hlevel, ?_⟩
      intro between hfrom hto
      exact hsince between hfrom (Nat.le_succ_of_le hto)
    · exact .inr ⟨hdeclares, hlevel.symm⟩
  · rintro ⟨hopen, ⟨site, hsite, hdeclares, hlevel, hsince⟩ | ⟨hdeclares, hlevel⟩⟩
    · refine ⟨site, Nat.lt_succ_of_lt hsite, hdeclares, hlevel, ?_⟩
      intro between hfrom hto
      rcases Nat.le_or_eq_of_le_succ hto with hto | rfl
      · exact hsince between hfrom hto
      · exact hopen
    · refine ⟨place, Nat.lt_succ_self place, hdeclares, hlevel.symm, ?_⟩
      intro between hfrom hto
      rcases Nat.le_or_eq_of_le_succ hto with hto | rfl
      · rw [Nat.le_antisymm hto hfrom]
        exact hlevel.le
      · exact hopen

theorem holdsAt_contextAt_succ :
    (contextAt lexemes (place + 1)).scopes.HoldsAt level name ↔
      level ≤ braceDepthAt lexemes (place + 1) ∧
        ((contextAt lexemes place).scopes.HoldsAt level name ∨
          (DeclaresAt lexemes place name ∧ level = braceDepthAt lexemes place)) := by
  rw [← length_enclosing_contextAt, ← length_enclosing_contextAt]
  cases hlexeme : lexemes[place]? with
  | none =>
      have hnot : ¬ DeclaresAt lexemes place name := fun hdeclares =>
        not_nameAt hlexeme name hdeclares.nameAt
      rw [contextAt_succ_of_none hlexeme]
      simp only [hnot, false_and, or_false]
      exact ⟨fun hholds => ⟨hholds.le, hholds⟩, And.right⟩
  | some lexeme =>
      rw [contextAt_succ hlexeme, Context.holdsAt_step, declaresAt_iff hlexeme, and_assoc]

theorem holdsAt_contextAt_iff :
    (contextAt lexemes place).scopes.HoldsAt level name ↔
      DeclaredAtLevel lexemes place level name := by
  induction place with
  | zero => simp [Scopes.HoldsAt, Scopes.blocks, DeclaredAtLevel, List.getElem?_singleton]
  | succ place ih => rw [holdsAt_contextAt_succ, declaredAtLevel_succ, ih]

end

/-- A declaration of the name comes before `place`, and the number of open braces
never falls below what it is at the declaration up to `place`. -/
def DeclaredInOpenBlock (lexemes : List Lexeme) (place : Nat) (name : String) : Prop :=
  ∃ site < place, DeclaresAt lexemes site name ∧
    ∀ between, site ≤ between → between ≤ place →
      braceDepthAt lexemes site ≤ braceDepthAt lexemes between

theorem contains_scopes_contextAt_iff (lexemes : List Lexeme) (place : Nat) (name : String) :
    (contextAt lexemes place).scopes.contains name = true ↔
      DeclaredInOpenBlock lexemes place name := by
  rw [Scopes.contains_iff_exists_holdsAt]
  simp only [holdsAt_contextAt_iff]
  constructor
  · rintro ⟨level, site, hsite, hdeclares, rfl, hsince⟩
    exact ⟨site, hsite, hdeclares, hsince⟩
  · rintro ⟨site, hsite, hdeclares, hsince⟩
    exact ⟨_, site, hsite, hdeclares, rfl, hsince⟩

theorem Context.class_step_of_use {context : Context} {lexeme : Lexeme} {call : Bool}
    (hname : lexeme.isName = true) (hdeclares : ¬ context.declaresRegister lexeme = true)
    (hgate : (context.step lexeme call).1 ≠ .gate) :
    (context.step lexeme call).1 =
      if context.scopes.contains lexeme.text then .register else .identifier := by
  rw [context.class_step_of_isName hname, if_neg hdeclares] at hgate ⊢
  split_ifs at hgate ⊢ <;> simp_all

/-- A name that neither declares a register nor stands for a gate stands for a
register if it is declared in a block that is still open, and for nothing known
otherwise.  There is a set of registers for every open brace and one for the
document. -/
theorem classAt?_eq_register_iff_declaredInOpenBlock (lexemes : List Lexeme) (place : Nat) :
    (contextAt lexemes place).scopes.blocks.length = braceDepthAt lexemes place + 1 ∧
    ∀ name, NameAt lexemes place name → ¬ DeclaresAt lexemes place name →
      classAt? lexemes place ≠ some .gate →
      (classAt? lexemes place = some .register ↔ DeclaredInOpenBlock lexemes place name) ∧
      (classAt? lexemes place = some .identifier ↔ ¬ DeclaredInOpenBlock lexemes place name) := by
  refine ⟨?_, ?_⟩
  · rw [Scopes.length_blocks, length_enclosing_contextAt]
  · rintro name ⟨lexeme, hlexeme, hisName, rfl⟩ hsite hgate
    have hdeclares : ¬ (contextAt lexemes place).declaresRegister lexeme = true := fun h =>
      hsite ((declaresAt_iff hlexeme _).2 ⟨h, rfl⟩)
    rw [classAt?_eq_step hlexeme] at hgate ⊢
    rw [Context.class_step_of_use hisName hdeclares (fun h => hgate (congrArg some h)),
      ← contains_scopes_contextAt_iff]
    split_ifs with hcontains <;> simp [hcontains]

/-- A stray brace leaves the document open; the brace that closes a block ends what
was declared there. -/
theorem classAt?_eq_register_iff_after_blocks :
    ∃ lexemes, (scan "\x7dqubit q;\x7bqubit r;\x7dh r,q;".toList).lexemes = lexemes ∧
      NameAt lexemes 12 "q" ∧ ¬ DeclaresAt lexemes 12 "q" ∧
      classAt? lexemes 12 = some .register ∧ DeclaredInOpenBlock lexemes 12 "q" ∧
      NameAt lexemes 10 "r" ∧ ¬ DeclaresAt lexemes 10 "r" ∧
      classAt? lexemes 10 = some .identifier ∧ ¬ DeclaredInOpenBlock lexemes 10 "r" := by
  have hlexemes : (scan "\x7dqubit q;\x7bqubit r;\x7dh r,q;".toList).lexemes =
      [⟨.punctuation .closeBrace, "\x7d", ⟨1, 0⟩, 1⟩, ⟨.word, "qubit", ⟨1, 1⟩, 5⟩,
        ⟨.word, "q", ⟨1, 7⟩, 1⟩, ⟨.punctuation .semicolon, ";", ⟨1, 8⟩, 1⟩,
        ⟨.punctuation .openBrace, "\x7b", ⟨1, 9⟩, 1⟩, ⟨.word, "qubit", ⟨1, 10⟩, 5⟩,
        ⟨.word, "r", ⟨1, 16⟩, 1⟩, ⟨.punctuation .semicolon, ";", ⟨1, 17⟩, 1⟩,
        ⟨.punctuation .closeBrace, "\x7d", ⟨1, 18⟩, 1⟩, ⟨.word, "h", ⟨1, 19⟩, 1⟩,
        ⟨.word, "r", ⟨1, 21⟩, 1⟩, ⟨.punctuation .comma, ",", ⟨1, 22⟩, 1⟩,
        ⟨.word, "q", ⟨1, 23⟩, 1⟩, ⟨.punctuation .semicolon, ";", ⟨1, 24⟩, 1⟩] := by
    decide +kernel
  have hkeyword : Vocabulary.reservedClass? "qubit" = some .keyword := by decide
  have hdeclares : Vocabulary.role "qubit" = .declaresRegister := by decide
  have hgate : Vocabulary.reservedClass? "h" = some .builtinGate := by decide
  have hplain : Vocabulary.role "h" = .plain := by decide
  have hnameq : Vocabulary.reservedClass? "q" = none := by decide
  have hnamer : Vocabulary.reservedClass? "r" = none := by decide
  refine ⟨_, rfl, ?_⟩
  generalize (scan "\x7dqubit q;\x7bqubit r;\x7dh r,q;".toList).lexemes = lexemes at hlexemes ⊢
  have hq : NameAt lexemes 12 "q" := by
    subst hlexemes
    exact ⟨⟨.word, "q", ⟨1, 23⟩, 1⟩, rfl, by decide, rfl⟩
  have hr : NameAt lexemes 10 "r" := by
    subst hlexemes
    exact ⟨⟨.word, "r", ⟨1, 21⟩, 1⟩, rfl, by decide, rfl⟩
  have hq_site : ¬ DeclaresAt lexemes 12 "q" := by
    intro hsite
    have hidle : (contextAt lexemes 12).declaring = none := by
      rw [hlexemes, contextAt_eq_contextAfter]
      simp [contextAfter, headsCall, Context.step, Context.word, Context.name, Context.reserved,
        Context.punctuation, Scopes.contains, Scopes.enter, Scopes.leave, Scopes.declare,
        Lexeme.isComment, Lexeme.isOperand, hkeyword, hdeclares, hgate, hplain, hnameq, hnamer]
    cases hidle.symm.trans hsite.expected
  have hr_site : ¬ DeclaresAt lexemes 10 "r" := by
    intro hsite
    have hidle : (contextAt lexemes 10).declaring = none := by
      subst hlexemes
      decide +kernel
    cases hidle.symm.trans hsite.expected
  have hclasses : classesFrom {} lexemes =
      [.punctuation, .keyword, .identifier, .punctuation, .punctuation, .keyword, .identifier,
        .punctuation, .punctuation, .builtinGate, .identifier, .punctuation, .register,
        .punctuation] := by
    rw [hlexemes]
    simp [classesFrom, headsCall, Context.step, Context.word, Context.name, Context.reserved,
      Context.punctuation, Scopes.contains, Scopes.enter, Scopes.leave, Scopes.declare,
      Lexeme.isComment, Lexeme.isOperand, hkeyword, hdeclares, hgate, hplain, hnameq, hnamer]
  have hregister : classAt? lexemes 12 = some .register := by
    rw [classAt?_eq_getElem?, hclasses]
    rfl
  have hidentifier : classAt? lexemes 10 = some .identifier := by
    rw [classAt?_eq_getElem?, hclasses]
    rfl
  have hopen := (classAt?_eq_register_iff_declaredInOpenBlock lexemes 12).2 "q" hq hq_site
    (by rw [hregister]; decide)
  have hclosed := (classAt?_eq_register_iff_declaredInOpenBlock lexemes 10).2 "r" hr hr_site
    (by rw [hidentifier]; decide)
  exact ⟨hq, hq_site, hregister, hopen.1.1 hregister, hr, hr_site, hidentifier,
    hclosed.2.1 hidentifier⟩

end QasmHighlight
