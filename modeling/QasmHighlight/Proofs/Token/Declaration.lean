import QasmHighlight.Proofs.Token.History

/-!
# The name that a declaration binds

A register keyword at the head of a statement records the bracket depth at which
the name of the register is expected.  Between the keyword and the name there may
be a designator in brackets.  All of it is read at a greater depth, so none of its
names is taken for the register, whatever it nests and however many brackets were
left open before the declaration.
-/

namespace QasmHighlight

/-! ## Contexts along a run -/

theorem contextAfter_cons (context : Context) (lexeme : Lexeme) (rest : List Lexeme) :
    contextAfter context [] (lexeme :: rest) =
      contextAfter (context.step lexeme false).2 [] rest := by
  rw [contextAfter, context.step_snd lexeme _ false]

theorem contextAfter_append (context : Context) (before more : List Lexeme) :
    contextAfter context [] (before ++ more) =
      contextAfter (contextAfter context [] before) [] more := by
  induction before generalizing context with
  | nil => rfl
  | cons lexeme rest ih => rw [List.cons_append, contextAfter_cons, contextAfter_cons, ih]

theorem getElem?_classesFrom_length (context : Context) (before following : List Lexeme)
    (lexeme : Lexeme) :
    (classesFrom context (before ++ lexeme :: following))[before.length]? =
      some ((contextAfter context [] before).step lexeme (headsCall following)).1 := by
  obtain ⟨front, hlength, hclasses⟩ :=
    exists_classesFrom_append context before (lexeme :: following)
  rw [hclasses, contextAfter_following, ← hlength, List.getElem?_append_right (Nat.le_refl _),
    Nat.sub_self]
  rfl

theorem contextAfter_filter (context : Context) (lexemes : List Lexeme) :
    contextAfter context [] (lexemes.filter Lexeme.isSignificant) =
      contextAfter context [] lexemes := by
  induction lexemes generalizing context with
  | nil => rfl
  | cons lexeme rest ih =>
      rw [contextAfter_cons]
      by_cases hcomment : lexeme.isComment = true
      · rw [List.filter_cons_of_neg (by simp [Lexeme.isSignificant, hcomment]), ih,
          context.step_of_isComment hcomment]
      · rw [List.filter_cons_of_pos (by simp [Lexeme.isSignificant, hcomment]),
          contextAfter_cons, ih]

/-! ## Modifiers and keyword -/

def Vocabulary.modifiers : List String :=
  ["const", "input", "output", "readonly", "mutable"]

def Vocabulary.registerKeywords : List String :=
  ["qubit", "bit", "qreg", "creg"]

def Lexeme.IsModifier (lexeme : Lexeme) : Prop :=
  lexeme.kind = .word ∧ lexeme.text ∈ Vocabulary.modifiers

def Lexeme.IsRegisterKeyword (lexeme : Lexeme) : Prop :=
  lexeme.kind = .word ∧ lexeme.text ∈ Vocabulary.registerKeywords

theorem Vocabulary.role_eq_declaresRegister_iff (word : String) :
    Vocabulary.role word = .declaresRegister ↔ word ∈ Vocabulary.registerKeywords := by
  constructor
  · intro hrole
    unfold Vocabulary.role at hrole
    split_ifs at hrole with _ _ hword
    exact hword
  · have hwords : ∀ word ∈ registerKeywords, role word = .declaresRegister := by decide
    exact hwords word

namespace Context

/-- Since `start` a register keyword has been read and nothing that defines or
declares a name or gives the declaration up. -/
structure Awaits (context start : Context) : Prop where
  gates : context.gates = start.gates
  scopes : context.scopes = start.scopes
  namingGate : context.namingGate = false
  declaring : context.declaring = some start.bracketDepth

variable {context start : Context} {lexeme : Lexeme}

theorem step_of_isModifier (context : Context) (hmodifier : lexeme.IsModifier) :
    (context.step lexeme false).2 = { context with namingGate := false } := by
  obtain ⟨hkind, htext⟩ := hmodifier
  have hwords : ∀ word ∈ Vocabulary.modifiers,
      (Vocabulary.reservedClass? word).isSome = true ∧
        Vocabulary.role word = .modifiesDeclaration := by
    decide
  obtain ⟨hreserved, hrole⟩ := hwords lexeme.text htext
  obtain ⟨reservedClass, hreserved⟩ := Option.isSome_iff_exists.1 hreserved
  rw [context.step_of_reserved hkind hreserved, hrole]
  simp [reserved]

theorem contextAfter_modifiers (context : Context) {modifiers : List Lexeme}
    (hmodifiers : ∀ modifier ∈ modifiers, modifier.IsModifier) :
    ∃ naming, contextAfter context [] modifiers = { context with namingGate := naming } := by
  induction modifiers generalizing context with
  | nil => exact ⟨context.namingGate, rfl⟩
  | cons modifier more ih =>
      obtain ⟨hmodifier, hmore⟩ := List.forall_mem_cons.1 hmodifiers
      rw [contextAfter_cons, context.step_of_isModifier hmodifier]
      exact ih { context with namingGate := false } hmore

theorem awaits_step_of_isRegisterKeyword (hhead : context.atHead = true)
    (hkeyword : lexeme.IsRegisterKeyword) :
    (context.step lexeme false).2.Awaits context ∧
      (context.step lexeme false).2.bracketDepth = context.bracketDepth := by
  obtain ⟨hkind, htext⟩ := hkeyword
  have hwords : ∀ word ∈ Vocabulary.registerKeywords,
      (Vocabulary.reservedClass? word).isSome = true := by
    decide
  obtain ⟨reservedClass, hreserved⟩ := Option.isSome_iff_exists.1 (hwords lexeme.text htext)
  have hrole := (Vocabulary.role_eq_declaresRegister_iff lexeme.text).2 htext
  rw [context.step_of_reserved hkind hreserved, hrole]
  exact ⟨⟨rfl, rfl, rfl, by simp [reserved, hhead]⟩, rfl⟩

end Context

/-! ## The designator -/

/-- The lexeme may end a declaration or begin another definition or declaration. -/
def Lexeme.interrupts (lexeme : Lexeme) : Bool :=
  match lexeme.kind with
  | .punctuation .semicolon => true
  | .punctuation .openBrace => true
  | .punctuation .closeBrace => true
  | .unterminatedString => true
  | .operator => lexeme.text = "="
  | .word => lexeme.text ∈ "gate" :: Vocabulary.registerKeywords
  | _ => false

def bracketsPast (depth : Nat) : LexemeKind → Nat
  | .punctuation .openBracket => depth + 1
  | .punctuation .closeBracket => depth - 1
  | _ => depth

private theorem bracketsPast_add_markCount {depth : Nat} (hdepth : 0 < depth) (lexeme : Lexeme) :
    bracketsPast depth lexeme.kind + markCount .closeBracket [lexeme] =
      depth + markCount .openBracket [lexeme] := by
  unfold bracketsPast
  split <;> simp_all [markCount]
  exact Nat.sub_add_cancel hdepth

namespace Context

variable {context start : Context} {lexeme : Lexeme}

theorem bracketDepth_step (context : Context) (lexeme : Lexeme) (call : Bool) :
    (context.step lexeme call).2.bracketDepth = bracketsPast context.bracketDepth lexeme.kind := by
  cases hkind : lexeme.kind with
  | word =>
      cases hreserved : Vocabulary.reservedClass? lexeme.text with
      | some reservedClass =>
          rw [context.step_of_reserved hkind hreserved]
          rfl
      | none =>
          rw [context.step_of_isName (Lexeme.isName_iff.2 ⟨hkind, hreserved⟩), name_snd_eq]
          split_ifs <;> rfl
  | punctuation mark =>
      simp only [step, hkind]
      cases mark <;> rfl
  | _ => simp [step, hkind, operator, bracketsPast]

theorem declaring_step (hgoes_on : lexeme.interrupts = false)
    (hdeclares : context.declaresRegister lexeme = false) (call : Bool) :
    (context.step lexeme call).2.declaring = context.declaring := by
  unfold Lexeme.interrupts at hgoes_on
  cases hkind : lexeme.kind with
  | word =>
      rw [hkind] at hgoes_on
      cases hreserved : Vocabulary.reservedClass? lexeme.text with
      | some reservedClass =>
          have hrole : Vocabulary.role lexeme.text ≠ .declaresRegister := by
            rw [Ne, Vocabulary.role_eq_declaresRegister_iff]
            simp_all
          rw [context.step_of_reserved hkind hreserved]
          simp [reserved, hrole]
      | none =>
          have hname := Lexeme.isName_iff.2 ⟨hkind, hreserved⟩
          rw [context.step_of_isName hname, name_snd_eq]
          split_ifs <;> simp_all [declaresRegister]
  | punctuation mark =>
      rw [hkind] at hgoes_on
      simp only [step, hkind]
      cases mark <;> simp_all [punctuation]
  | operator => simp_all [step, operator]
  | unterminatedString => simp [hkind] at hgoes_on
  | _ => simp [step, hkind]

/-- A lexeme that does not interrupt the declaration is passed over, if it is no name
at the bracket depth of the keyword. -/
theorem Awaits.step (hawaits : context.Awaits start) (hgoes_on : lexeme.interrupts = false)
    (hdepth : lexeme.isName = true → context.bracketDepth ≠ start.bracketDepth) :
    (context.step lexeme false).2.Awaits start := by
  have hdefines : context.definesGate lexeme = false := by
    simp [definesGate, hawaits.namingGate]
  have hdeclares : context.declaresRegister lexeme = false := by
    cases hname : lexeme.isName with
    | false => simp [declaresRegister, hname]
    | true => simp [declaresRegister, hawaits.declaring, (hdepth hname).symm]
  have hpast : context.scopes.past lexeme.kind = context.scopes := by
    unfold Lexeme.interrupts at hgoes_on
    unfold Scopes.past
    split <;> simp_all
  refine ⟨?_, ?_, ?_, ?_⟩
  · rw [gates_step, hdefines, if_neg Bool.false_ne_true, hawaits.gates]
  · rw [scopes_step, hdeclares, if_neg Bool.false_ne_true, hpast, hawaits.scopes]
  · rw [namingGate_step, hawaits.namingGate]
    unfold Lexeme.interrupts at hgoes_on
    split_ifs with hkind <;> simp_all
  · rw [declaring_step hgoes_on hdeclares, hawaits.declaring]

/-- Inside a designator `extra` brackets are open besides its own and those at the
keyword.  Its own bracket keeps every name off the depth of the keyword. -/
theorem Awaits.run {inside : List Lexeme} {extra : Nat} (hawaits : context.Awaits start)
    (hdepth : context.bracketDepth = start.bracketDepth + (extra + 1))
    (hinside : ∀ lexeme ∈ inside, lexeme.interrupts = false)
    (hcovered : ∀ front, front <+: inside →
      markCount .closeBracket front ≤ extra + markCount .openBracket front) :
    (contextAfter context [] inside).Awaits start ∧
      (contextAfter context [] inside).bracketDepth + markCount .closeBracket inside =
        start.bracketDepth + (extra + 1) + markCount .openBracket inside := by
  induction inside generalizing context extra with
  | nil => exact ⟨hawaits, hdepth⟩
  | cons lexeme rest ih =>
      obtain ⟨hgoes_on, hrest⟩ := List.forall_mem_cons.1 hinside
      obtain ⟨next, hnext, hmore⟩ := covered_cons_iff.1 hcovered
      have hpast : (context.step lexeme false).2.bracketDepth =
          start.bracketDepth + (next + 1) := by
        have hopen : 0 < context.bracketDepth := by omega
        have hcount := bracketsPast_add_markCount hopen lexeme
        rw [bracketDepth_step]
        omega
      have hread := hawaits.step hgoes_on (fun _ => by omega)
      obtain ⟨hend, hcount⟩ := ih hread hpast hrest hmore
      rw [contextAfter_cons, markCount_cons, markCount_cons .openBracket]
      exact ⟨hend, by omega⟩

end Context

/-- Nothing, or brackets around balanced lexemes that do not interrupt. -/
inductive IsDesignator : List Lexeme → Prop
  | absent : IsDesignator []
  | brackets {opening closing : Lexeme} {inside : List Lexeme}
      (hopening : opening.kind = .punctuation .openBracket)
      (hclosing : closing.kind = .punctuation .closeBracket)
      (hbalanced : Balanced .openBracket .closeBracket inside)
      (hinside : ∀ lexeme ∈ inside, lexeme.interrupts = false) :
      IsDesignator (opening :: inside ++ [closing])

theorem IsDesignator.awaits_run {designator : List Lexeme} (hdesignator : IsDesignator designator)
    {context start : Context} (hawaits : context.Awaits start)
    (hdepth : context.bracketDepth = start.bracketDepth) :
    (contextAfter context [] designator).Awaits start ∧
      (contextAfter context [] designator).bracketDepth = start.bracketDepth := by
  cases hdesignator with
  | absent => exact ⟨hawaits, hdepth⟩
  | @brackets opening closing inside hopening hclosing hbalanced hinside =>
      have hgoes_on : opening.interrupts = false := by simp [Lexeme.interrupts, hopening]
      have hopened := hawaits.step hgoes_on (by simp [Lexeme.isName, hopening])
      have hopened_depth : (context.step opening false).2.bracketDepth =
          start.bracketDepth + 1 := by
        rw [Context.bracketDepth_step, hopening, hdepth]
        rfl
      obtain ⟨hread, hread_depth⟩ :=
        hopened.run hopened_depth hinside hbalanced.covered_from_zero
      rw [hbalanced.closed, Nat.add_right_cancel_iff] at hread_depth
      have hgoes_on' : closing.interrupts = false := by simp [Lexeme.interrupts, hclosing]
      have hclosed := hread.step hgoes_on' (by simp [Lexeme.isName, hclosing])
      rw [contextAfter_concat, contextAfter_cons]
      refine ⟨hclosed, ?_⟩
      rw [Context.bracketDepth_step, hclosing, hread_depth]
      rfl

/-! ## The name -/

/-- From the head of a statement modifiers, a register keyword and a designator lead to
where a name is awaited, with as many brackets open as at the head. -/
theorem Context.awaits_of_declaration
    {context : Context} (hhead : context.atHead = true)
    {modifiers designator before : List Lexeme} {keyword : Lexeme}
    (hmodifiers : ∀ modifier ∈ modifiers, modifier.IsModifier)
    (hkeyword : keyword.IsRegisterKeyword) (hdesignator : IsDesignator designator)
    (hbefore : before.filter Lexeme.isSignificant = modifiers ++ keyword :: designator) :
    (contextAfter context [] before).Awaits context ∧
      (contextAfter context [] before).bracketDepth = context.bracketDepth := by
  obtain ⟨naming, hmodified⟩ := Context.contextAfter_modifiers context hmodifiers
  have hmodified_head : ({ context with namingGate := naming } : Context).atHead = true := hhead
  obtain ⟨hawaits, hdepth⟩ := Context.awaits_step_of_isRegisterKeyword hmodified_head hkeyword
  obtain ⟨hexpected, hlevel⟩ := hdesignator.awaits_run hawaits hdepth
  rw [← contextAfter_cons, ← hmodified, ← contextAfter_append, ← hbefore,
    contextAfter_filter, hmodified] at hexpected hlevel
  exact ⟨⟨hexpected.gates, hexpected.scopes, hexpected.namingGate, hexpected.declaring⟩, hlevel⟩

theorem Context.Awaits.step_name {context start : Context} (hawaits : context.Awaits start)
    (hdepth : context.bracketDepth = start.bracketDepth) {name : Lexeme}
    (hname : name.isName = true) (call : Bool) :
    (context.step name call).1 = .identifier ∧
      (context.step name call).2.scopes = start.scopes.declare name.text ∧
      (context.step name call).2.gates = start.gates := by
  have hdefines : context.definesGate name = false := by
    simp [definesGate, hawaits.namingGate]
  have hdeclares : context.declaresRegister name = true := by
    simp [declaresRegister, hname, hawaits.namingGate, hawaits.declaring, hdepth]
  refine ⟨?_, ?_, ?_⟩
  · rw [context.class_step_of_isName hname, hdefines, hdeclares]
    rfl
  · rw [scopes_step, if_pos hdeclares, hawaits.scopes]
  · rw [gates_step, hdefines, hawaits.gates]
    rfl

/-- At the head of a statement, modifiers, a register keyword and a designator make
the name after them a register of the innermost block, and no other name changes
what it stands for.  Comments may stand anywhere. -/
theorem declaration_binds_name
    {context : Context} (hhead : context.atHead = true)
    {modifiers designator before : List Lexeme} {keyword name : Lexeme}
    (hmodifiers : ∀ modifier ∈ modifiers, modifier.IsModifier)
    (hkeyword : keyword.IsRegisterKeyword) (hdesignator : IsDesignator designator)
    (hname : name.isName = true)
    (hbefore : before.filter Lexeme.isSignificant = modifiers ++ keyword :: designator)
    (following : List Lexeme) :
    (classesFrom context (before ++ name :: following))[before.length]? = some .identifier ∧
    (contextAfter context following (before ++ [name])).scopes.innermost =
      context.scopes.innermost.insert name.text ∧
    (contextAfter context following (before ++ [name])).scopes.enclosing =
      context.scopes.enclosing ∧
    (contextAfter context following (before ++ [name])).gates = context.gates := by
  obtain ⟨hawaits, hdepth⟩ :=
    Context.awaits_of_declaration hhead hmodifiers hkeyword hdesignator hbefore
  obtain ⟨hclass, _, _⟩ := hawaits.step_name hdepth hname (headsCall following)
  obtain ⟨_, hscopes, hgates⟩ := hawaits.step_name hdepth hname false
  rw [getElem?_classesFrom_length, contextAfter_following context following, contextAfter_concat,
    hclass, hscopes, hgates]
  exact ⟨rfl, rfl, rfl, rfl⟩

/-- Two brackets are left open, and the name of a gate is still expected. -/
theorem declaration_binds_name_past_designator :
    ∃ context before, contextAfter {} [] (scan "gate[[;".toList).lexemes = context ∧
      (scan "input bit[n[0]/* m */]".toList).lexemes = before ∧
      context.atHead = true ∧ context.namingGate = true ∧ context.bracketDepth = 2 ∧
      (classesFrom context (before ++ .bare .word "q" :: []))[before.length]? = some .identifier ∧
      (contextAfter context [] (before ++ [.bare .word "q"])).scopes.innermost =
        context.scopes.innermost.insert "q" := by
  refine ⟨_, _, rfl, rfl, ?_⟩
  have hhead : (contextAfter {} [] (scan "gate[[;".toList).lexemes).atHead = true := by
    decide +kernel
  have hnaming : (contextAfter {} [] (scan "gate[[;".toList).lexemes).namingGate = true := by
    decide +kernel
  have hdepth : (contextAfter {} [] (scan "gate[[;".toList).lexemes).bracketDepth = 2 := by
    decide +kernel
  have hbefore : (scan "input bit[n[0]/* m */]".toList).lexemes.filter Lexeme.isSignificant =
      [⟨.word, "input", ⟨1, 0⟩, 5⟩] ++ ⟨.word, "bit", ⟨1, 6⟩, 3⟩ ::
        (⟨.punctuation .openBracket, "[", ⟨1, 9⟩, 1⟩ ::
          [⟨.word, "n", ⟨1, 10⟩, 1⟩, ⟨.punctuation .openBracket, "[", ⟨1, 11⟩, 1⟩,
            ⟨.number, "0", ⟨1, 12⟩, 1⟩, ⟨.punctuation .closeBracket, "]", ⟨1, 13⟩, 1⟩] ++
          [⟨.punctuation .closeBracket, "]", ⟨1, 21⟩, 1⟩]) := by
    decide +kernel
  have hname : (Lexeme.bare .word "q").isName = true := by decide
  obtain ⟨hclass, hinnermost, _⟩ :=
    declaration_binds_name hhead (by simp [Lexeme.IsModifier, Vocabulary.modifiers])
      ⟨rfl, by decide⟩ (.brackets rfl rfl (by decide) (by decide)) hname hbefore []
  exact ⟨hhead, hnaming, hdepth, hclass, hinnermost⟩

end QasmHighlight
