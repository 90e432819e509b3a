import Mathlib.Data.Fintype.EquivFin
import Mathlib.Data.List.Forall2
import QasmHighlight.Proofs.Token.Spelling
import QasmHighlight.Proofs.Token.Stability

/-!
# What survives a semicolon

A semicolon ends a register declaration and makes the next lexeme the head of a
statement.  It does not end what else a statement can leave unfinished: the name
of a gate that is expected, a condition that is expected or not yet closed, and
open brackets.  Two runs of lexemes that both end in a semicolon, define the same
gates and declare the same registers give the lexemes after them the same classes
exactly if they leave the same business unfinished.
-/

namespace QasmHighlight

/-! ## Contexts that decide alike -/

namespace Scopes

structure SameNames (scopes others : Scopes) : Prop where
  innermost : scopes.innermost.Equiv others.innermost
  enclosing : List.Forall₂ Std.HashSet.Equiv scopes.enclosing others.enclosing

variable {scopes others : Scopes}

theorem SameNames.contains_eq (hsame : scopes.SameNames others) (name : String) :
    scopes.contains name = others.contains name := by
  have hany : ∀ {outer outer' : List Names}, List.Forall₂ Std.HashSet.Equiv outer outer' →
      outer.any (·.contains name) = outer'.any (·.contains name) := by
    intro outer outer' houter
    induction houter with
    | nil => rfl
    | cons hblock _ ih => rw [List.any_cons, List.any_cons, hblock.contains_eq, ih]
  unfold contains
  rw [hsame.innermost.contains_eq, hany hsame.enclosing]

theorem SameNames.enter (hsame : scopes.SameNames others) :
    scopes.enter.SameNames others.enter :=
  ⟨.rfl, .cons hsame.innermost hsame.enclosing⟩

theorem SameNames.leave (hsame : scopes.SameNames others) :
    scopes.leave.SameNames others.leave := by
  obtain ⟨innermost, enclosing⟩ := scopes
  obtain ⟨innermost', enclosing'⟩ := others
  cases hsame.enclosing with
  | nil => exact hsame
  | cons houter hmore => exact ⟨houter, hmore⟩

theorem SameNames.declare (hsame : scopes.SameNames others) (name : String) :
    (scopes.declare name).SameNames (others.declare name) :=
  ⟨hsame.innermost.insert name, hsame.enclosing⟩

@[simp] theorem contains_declare (scopes : Scopes) (name : String) :
    (scopes.declare name).contains name = true := by
  simp [contains, declare]

end Scopes

namespace Context

structure SameNames (context other : Context) : Prop where
  gates : context.gates.Equiv other.gates
  scopes : context.scopes.SameNames other.scopes

/-- The contexts agree on what a statement can leave unfinished, the declaration of
a register aside.  Of the open parentheses only those of conditions count. -/
structure SameBusiness (context other : Context) : Prop where
  namingGate : context.namingGate = other.namingGate
  awaitsCondition : context.awaitsCondition = other.awaitsCondition
  bracketDepth : context.bracketDepth = other.bracketDepth
  condition_iff : ∀ depth : Nat,
    context.parens[depth]? = some .condition ↔ other.parens[depth]? = some .condition

structure Alike (context other : Context) : Prop extends
    SameNames context other, SameBusiness context other where
  atHead : context.atHead = other.atHead
  declaring : context.declaring = other.declaring

variable {context other : Context}

theorem Alike.operator (halike : context.Alike other) (text : String) :
    (context.operator text).Alike (other.operator text) :=
  { halike with
    atHead := by simp only [Context.operator, halike.atHead]
    declaring := by simp only [Context.operator, halike.declaring] }

theorem Alike.reserved (halike : context.Alike other) (role : Vocabulary.Role) :
    (context.reserved role).Alike (other.reserved role) :=
  { halike with
    namingGate := rfl
    awaitsCondition := by simp only [Context.reserved, halike.awaitsCondition]
    atHead := by simp only [Context.reserved, halike.atHead]
    declaring := by
      simp only [Context.reserved, halike.atHead, halike.bracketDepth, halike.declaring] }

theorem Alike.punctuation (halike : context.Alike other) (mark : Punctuation) :
    (context.punctuation mark).Alike (other.punctuation mark) := by
  cases mark with
  | semicolon => exact { halike with atHead := rfl, declaring := rfl }
  | openBrace =>
      exact { halike with scopes := halike.scopes.enter, atHead := rfl, declaring := rfl }
  | closeBrace => exact { halike with scopes := halike.scopes.leave, atHead := rfl }
  | openParen =>
      refine { halike with awaitsCondition := rfl, condition_iff := ?_, atHead := rfl }
      intro depth
      cases depth with
      | zero => simp [Context.punctuation, halike.awaitsCondition]
      | succ depth => exact halike.condition_iff depth
  | closeParen =>
      refine { halike with condition_iff := ?_, atHead := ?_ }
      · intro depth
        simp only [Context.punctuation, List.getElem?_tail]
        exact halike.condition_iff (depth + 1)
      · have hhead := halike.condition_iff 0
        simp only [Context.punctuation, List.head?_eq_getElem?, hhead]
  | openBracket =>
      refine { halike with bracketDepth := ?_, atHead := rfl }
      simp only [Context.punctuation, halike.bracketDepth]
  | closeBracket =>
      refine { halike with bracketDepth := ?_, atHead := rfl }
      simp only [Context.punctuation, halike.bracketDepth]
  | comma => exact { halike with atHead := rfl }
  | colon => exact { halike with atHead := rfl }
  | dot => exact { halike with atHead := rfl }

theorem Alike.name (halike : context.Alike other) (text : String) (call : Bool) :
    (context.name text call).1 = (other.name text call).1 ∧
      (context.name text call).2.Alike (other.name text call).2 := by
  have hafter : ({ context with namingGate := false, atHead := false } : Context).Alike
      { other with namingGate := false, atHead := false } :=
    { halike with namingGate := rfl, atHead := rfl }
  have hdeclares : context.declaring = some context.bracketDepth ↔
      other.declaring = some other.bracketDepth := by
    rw [halike.declaring, halike.bracketDepth]
  unfold Context.name
  dsimp only
  rw [halike.namingGate, halike.atHead, halike.gates.contains_eq, halike.scopes.contains_eq]
  simp only [hdeclares]
  split_ifs
  · exact ⟨rfl, { hafter with gates := halike.gates.insert text }⟩
  · exact ⟨rfl, { hafter with scopes := halike.scopes.declare text, declaring := rfl }⟩
  all_goals exact ⟨rfl, hafter⟩

/-- Contexts that decide alike give a lexeme the same class and go on deciding
alike. -/
theorem Alike.step (halike : context.Alike other) (lexeme : Lexeme) (call : Bool) :
    (context.step lexeme call).1 = (other.step lexeme call).1 ∧
      (context.step lexeme call).2.Alike (other.step lexeme call).2 := by
  unfold Context.step
  cases lexeme.kind with
  | comment => exact ⟨rfl, halike⟩
  | string => exact ⟨rfl, { halike with atHead := rfl }⟩
  | unterminatedString => exact ⟨rfl, { halike with atHead := rfl, declaring := rfl }⟩
  | number => exact ⟨rfl, { halike with atHead := rfl }⟩
  | hardwareQubit => exact ⟨rfl, { halike with atHead := rfl }⟩
  | operator => exact ⟨rfl, halike.operator lexeme.text⟩
  | punctuation mark => exact ⟨rfl, halike.punctuation mark⟩
  | word =>
      dsimp only [Context.word]
      cases Vocabulary.reservedClass? lexeme.text with
      | some reservedClass => exact ⟨rfl, halike.reserved _⟩
      | none => exact halike.name lexeme.text call

theorem Alike.classesFrom_eq (halike : context.Alike other) (lexemes : List Lexeme) :
    classesFrom context lexemes = classesFrom other lexemes := by
  induction lexemes generalizing context other with
  | nil => rfl
  | cons lexeme rest ih =>
      obtain ⟨hclass, hnext⟩ := halike.step lexeme (headsCall rest)
      simp only [classesFrom]
      rw [hclass, ih hnext]

/-! ## Contexts that no continuation tells apart -/

/-- The context after a name; its class and the lexemes ahead have no bearing on it. -/
theorem name_snd_eq (context : Context) (text : String) (call : Bool) :
    (context.name text call).2 =
      if context.namingGate then
        { context with namingGate := false, atHead := false, gates := context.gates.insert text }
      else if context.declaring = some context.bracketDepth then
        { context with
          namingGate := false
          atHead := false
          declaring := none
          scopes := context.scopes.declare text }
      else { context with namingGate := false, atHead := false } := by
  unfold Context.name
  dsimp only
  split_ifs <;> rfl

private theorem name_snd (context : Context) (text : String) (call call' : Bool) :
    (context.name text call).2 = (context.name text call').2 := by
  rw [name_snd_eq, name_snd_eq]

/-- A gate call ahead bears on the class of a lexeme, but not on the context. -/
theorem step_snd (context : Context) (lexeme : Lexeme) (call call' : Bool) :
    (context.step lexeme call).2 = (context.step lexeme call').2 := by
  unfold Context.step
  cases lexeme.kind with
  | word =>
      dsimp only [Context.word]
      cases Vocabulary.reservedClass? lexeme.text with
      | some reservedClass => rfl
      | none => exact context.name_snd lexeme.text call call'
  | _ => rfl

def Indistinguishable (context other : Context) : Prop :=
  ∀ lexemes, classesFrom context lexemes = classesFrom other lexemes

namespace Indistinguishable

theorem class_eq (hsame : context.Indistinguishable other) (lexeme : Lexeme)
    (rest : List Lexeme) :
    (context.step lexeme (headsCall rest)).1 = (other.step lexeme (headsCall rest)).1 :=
  (List.cons.inj (hsame (lexeme :: rest))).1

theorem step (hsame : context.Indistinguishable other) (lexeme : Lexeme) :
    (context.step lexeme false).2.Indistinguishable (other.step lexeme false).2 := by
  intro rest
  have hrest := (List.cons.inj (hsame (lexeme :: rest))).2
  rw [context.step_snd lexeme false (headsCall rest), other.step_snd lexeme false (headsCall rest)]
  exact hrest

theorem after (hsame : context.Indistinguishable other) (lexemes : List Lexeme) :
    (contextAfter context [] lexemes).Indistinguishable (contextAfter other [] lexemes) := by
  induction lexemes generalizing context other with
  | nil => exact hsame
  | cons lexeme rest ih =>
      have hrest := ih (hsame.step lexeme)
      rwa [context.step_snd lexeme false (headsCall (rest ++ [])),
        other.step_snd lexeme false (headsCall (rest ++ []))] at hrest

end Indistinguishable

/-- A word that is not reserved and stands for nothing in the context. -/
structure IsFresh (context : Context) (name : String) : Prop where
  reserved : Vocabulary.reservedClass? name = none
  gates : context.gates.contains name = false
  scopes : context.scopes.contains name = false

private theorem exists_isFresh (context : Context) : ∃ name, context.IsFresh name := by
  have hinfinite : Infinite String :=
    Infinite.of_injective String.ofList fun _ _ hlists => String.ofList_injective hlists
  obtain ⟨name, hname⟩ := Infinite.exists_notMem_finset
    (Vocabulary.groups.flatMap (·.2) ++ context.gates.toList ++
      context.scopes.innermost.toList ++
      context.scopes.enclosing.flatMap (·.toList)).toFinset
  simp only [List.mem_toFinset, List.mem_append, List.mem_flatMap, not_or, not_exists, not_and,
    Std.HashSet.mem_toList] at hname
  obtain ⟨⟨⟨hreserved, hgates⟩, hinnermost⟩, henclosing⟩ := hname
  refine ⟨name, ?_, ?_, ?_⟩
  · unfold Vocabulary.reservedClass?
    rw [Option.map_eq_none_iff, List.find?_eq_none]
    intro group hgroup
    simpa using hreserved group hgroup
  · simpa using hgates
  · unfold Scopes.contains
    simpa using ⟨hinnermost, henclosing⟩

theorem SameNames.isFresh (hnames : context.SameNames other) {name : String}
    (hfresh : context.IsFresh name) : other.IsFresh name where
  reserved := hfresh.reserved
  gates := hnames.gates.contains_eq.symm.trans hfresh.gates
  scopes := (hnames.scopes.contains_eq name).symm.trans hfresh.scopes

/-- Neither a gate nor a register waits for its name, and `name` is fresh. -/
structure IsIdle (context : Context) (name : String) : Prop extends IsFresh context name where
  namingGate : context.namingGate = false
  declaring : context.declaring = none

variable {name : String}

theorem IsIdle.class_eq (hidle : context.IsIdle name) (call : Bool) :
    (context.step (.bare .word name) call).1 =
      if context.atHead && call then .gate else .identifier := by
  simp [step, Lexeme.bare, word, Context.name, hidle.reserved, hidle.gates, hidle.scopes,
    hidle.namingGate, hidle.declaring, apply_ite Prod.fst]

theorem IsIdle.punctuation (hidle : context.IsIdle name) {mark : Punctuation}
    (hmark : mark ≠ .openBrace ∧ mark ≠ .closeBrace) : (context.punctuation mark).IsIdle name := by
  cases mark with
  | openBrace => exact absurd rfl hmark.1
  | closeBrace => exact absurd rfl hmark.2
  | semicolon => exact { hidle with declaring := rfl }
  | _ => exact { hidle with }

/-- A register declaration with a bracket that nothing opened before the name. -/
def strayBracket (name : String) : List Lexeme :=
  [.bare (.punctuation .semicolon) ";", .bare .word "qubit",
    .bare (.punctuation .closeBracket) "]", .bare .word name]

/-- The stray bracket closes one that is still open, and the name is then not where
the declaration expects it. -/
theorem IsIdle.class_after_strayBracket (hidle : context.IsIdle name) (call : Bool) :
    ((contextAfter context [] (strayBracket name)).step (.bare .word name) call).1 =
      if context.bracketDepth = 0 then .register else .identifier := by
  have hkeyword : Vocabulary.reservedClass? "qubit" = some .keyword := by decide
  have hrole : Vocabulary.role "qubit" = .declaresRegister := by decide
  by_cases hdepth : context.bracketDepth = 0
  · simp [contextAfter, strayBracket, step, Lexeme.bare, word, hkeyword, hrole, reserved,
      Context.punctuation, Context.name, hidle.reserved, hidle.gates, hdepth]
  · have hlower : context.bracketDepth ≠ context.bracketDepth - 1 := by omega
    simp [contextAfter, strayBracket, step, Lexeme.bare, word, hkeyword, hrole, reserved,
      Context.punctuation, Context.name, hidle.reserved, hidle.gates, hidle.scopes, hdepth, hlower]

namespace Indistinguishable

theorem atHead_eq (hsame : context.Indistinguishable other) (hidle : context.IsIdle name)
    (hidle' : other.IsIdle name) : context.atHead = other.atHead := by
  have hcall : headsCall [Lexeme.bare .hardwareQubit "$0"] = true := by decide
  have hclass := hsame.class_eq (.bare .word name) [.bare .hardwareQubit "$0"]
  rw [hidle.class_eq, hidle'.class_eq, hcall, Bool.and_true, Bool.and_true] at hclass
  cases hhead : context.atHead <;> cases hhead' : other.atHead <;> simp_all

/-- A row of closing parentheses, a name and an operand after it tell whether the
last one closes a condition. -/
theorem condition_iff (hsame : context.Indistinguishable other) (hidle : context.IsIdle name)
    (hidle' : other.IsIdle name) (depth : Nat) :
    context.parens[depth]? = some .condition ↔ other.parens[depth]? = some .condition := by
  have hclosed : (context.punctuation .closeParen).Indistinguishable
      (other.punctuation .closeParen) :=
    hsame.step (.bare (.punctuation .closeParen) ")")
  have hnext : (context.punctuation .closeParen).IsIdle name := hidle.punctuation (by decide)
  have hnext' : (other.punctuation .closeParen).IsIdle name := hidle'.punctuation (by decide)
  induction depth generalizing context other with
  | zero =>
      have hhead := hclosed.atHead_eq hnext hnext'
      simpa [punctuation, List.head?_eq_getElem?] using hhead
  | succ depth ih =>
      have houter := ih hclosed hnext hnext'
        (hclosed.step (.bare (.punctuation .closeParen) ")"))
        (hnext.punctuation (by decide)) (hnext'.punctuation (by decide))
      simpa [punctuation] using houter

theorem awaitsCondition_eq (hsame : context.Indistinguishable other)
    (hidle : context.IsIdle name) (hidle' : other.IsIdle name) :
    context.awaitsCondition = other.awaitsCondition := by
  have hopened : (context.punctuation .openParen).Indistinguishable
      (other.punctuation .openParen) :=
    hsame.step (.bare (.punctuation .openParen) "(")
  have hinnermost := hopened.condition_iff (hidle.punctuation (by decide))
    (hidle'.punctuation (by decide)) 0
  cases hawaits : context.awaitsCondition <;> cases hawaits' : other.awaitsCondition <;>
    simp_all [punctuation]

theorem bracketDepth_eq_zero_iff (hsame : context.Indistinguishable other)
    (hidle : context.IsIdle name) (hidle' : other.IsIdle name) :
    context.bracketDepth = 0 ↔ other.bracketDepth = 0 := by
  have hclass := (hsame.after (strayBracket name)).class_eq (.bare .word name) []
  rw [hidle.class_after_strayBracket, hidle'.class_after_strayBracket] at hclass
  by_cases hdepth : context.bracketDepth = 0 <;> by_cases hdepth' : other.bracketDepth = 0 <;>
    simp_all

theorem bracketDepth_eq (hsame : context.Indistinguishable other)
    (hidle : context.IsIdle name) (hidle' : other.IsIdle name) :
    context.bracketDepth = other.bracketDepth := by
  have hzero := hsame.bracketDepth_eq_zero_iff hidle hidle'
  induction hdepth : context.bracketDepth generalizing context other with
  | zero => exact (hzero.1 hdepth).symm
  | succ depth ih =>
      have hclosed : (context.punctuation .closeBracket).Indistinguishable
          (other.punctuation .closeBracket) :=
        hsame.step (.bare (.punctuation .closeBracket) "]")
      have hnext : (context.punctuation .closeBracket).IsIdle name :=
        hidle.punctuation (by decide)
      have hnext' : (other.punctuation .closeBracket).IsIdle name :=
        hidle'.punctuation (by decide)
      have hinner := ih hclosed hnext hnext' (hclosed.bracketDepth_eq_zero_iff hnext hnext')
        (by simp [punctuation, hdepth])
      simp only [punctuation] at hinner
      omega

/-- Contexts that no lexemes tell apart leave the same business unfinished. -/
theorem sameBusiness (hsame : context.Indistinguishable other)
    (hnames : context.SameNames other) (hdeclaring : context.declaring = none)
    (hdeclaring' : other.declaring = none) : context.SameBusiness other := by
  obtain ⟨name, hfresh⟩ := context.exists_isFresh
  have hfresh' := hnames.isFresh hfresh
  have hnaming : context.namingGate = other.namingGate := by
    have hclass := hsame.class_eq (.bare .word name) []
    cases hgate : context.namingGate <;> cases hgate' : other.namingGate <;>
      simp_all [Context.step, Lexeme.bare, word, Context.name, headsCall, hfresh.reserved,
        hfresh.gates, hfresh.scopes, hfresh'.gates, hfresh'.scopes]
  have hconstant : Vocabulary.reservedClass? "pi" = some .builtinConstant := by decide
  have hrole : Vocabulary.role "pi" = .plain := by decide
  have hstep : ∀ context : Context,
      (context.step (.bare .word "pi") false).2 = context.reserved .plain := by
    intro context
    simp [Context.step, Lexeme.bare, word, hconstant, hrole]
  have hpast := hsame.step (.bare .word "pi")
  rw [hstep, hstep] at hpast
  have hidle : (context.reserved .plain).IsIdle name :=
    { hfresh with namingGate := rfl, declaring := by simp [reserved, hdeclaring] }
  have hidle' : (other.reserved .plain).IsIdle name :=
    { hfresh' with namingGate := rfl, declaring := by simp [reserved, hdeclaring'] }
  have hawaits := hpast.awaitsCondition_eq hidle hidle'
  have hdepth := hpast.bracketDepth_eq hidle hidle'
  have hconditions := hpast.condition_iff hidle hidle'
  exact ⟨hnaming, by simpa [reserved] using hawaits, hdepth, hconditions⟩

end Indistinguishable

end Context

/-! ## After a semicolon -/

theorem contextAfter_following (context : Context) (following lexemes : List Lexeme) :
    contextAfter context following lexemes = contextAfter context [] lexemes := by
  induction lexemes generalizing context with
  | nil => rfl
  | cons lexeme rest ih =>
      simp only [contextAfter]
      rw [context.step_snd lexeme _ (headsCall (rest ++ [])), ih]

theorem contextAfter_concat (context : Context) (before : List Lexeme) (lexeme : Lexeme) :
    contextAfter context [] (before ++ [lexeme]) =
      ((contextAfter context [] before).step lexeme false).2 := by
  induction before generalizing context with
  | nil => exact context.step_snd lexeme _ false
  | cons first rest ih =>
      simp only [List.cons_append, contextAfter]
      rw [ih, context.step_snd first _ (headsCall (rest ++ []))]

/-- The classes of lexemes that come after others. -/
def classesAfter (before following : List Lexeme) : List TokenClass :=
  ((classify (before ++ following)).drop before.length).map (·.tokenClass)

theorem classesAfter_eq_classesFrom (before following : List Lexeme) :
    classesAfter before following = classesFrom (contextAfter {} [] before) following := by
  obtain ⟨front, hlength, hclasses⟩ := exists_classesFrom_append {} before following
  unfold classesAfter
  rw [List.map_drop, map_tokenClass_classify, hclasses, ← hlength, List.drop_left,
    contextAfter_following]

def EndsWithSemicolon (lexemes : List Lexeme) : Prop :=
  lexemes.getLast?.map (·.kind) = some (.punctuation .semicolon)

theorem EndsWithSemicolon.atHead_declaring {lexemes : List Lexeme}
    (hends : EndsWithSemicolon lexemes) :
    (contextAfter {} [] lexemes).atHead = true ∧
      (contextAfter {} [] lexemes).declaring = none := by
  obtain ⟨semicolon, hlast, hkind⟩ := Option.map_eq_some_iff.1 hends
  obtain ⟨before, rfl⟩ := List.getLast?_eq_some_iff.1 hlast
  rw [contextAfter_concat]
  simp [Context.step, hkind, Context.punctuation]

/-- Two runs of lexemes that end with a semicolon and leave the same gates and
registers give all lexemes after them the same classes exactly if they leave the
same business unfinished: the semicolon settles none of it. -/
theorem classesAfter_semicolon_eq_iff {first second : List Lexeme}
    (hfirst : EndsWithSemicolon first) (hsecond : EndsWithSemicolon second)
    (hnames : (contextAfter {} [] first).SameNames (contextAfter {} [] second)) :
    (∀ following, classesAfter first following = classesAfter second following) ↔
      (contextAfter {} [] first).SameBusiness (contextAfter {} [] second) := by
  obtain ⟨hhead, hdeclaring⟩ := hfirst.atHead_declaring
  obtain ⟨hhead', hdeclaring'⟩ := hsecond.atHead_declaring
  simp only [classesAfter_eq_classesFrom]
  constructor
  · intro hsame
    exact Context.Indistinguishable.sameBusiness hsame hnames hdeclaring hdeclaring'
  · intro hbusiness following
    have halike : (contextAfter {} [] first).Alike (contextAfter {} [] second) :=
      { hnames, hbusiness with
        atHead := hhead.trans hhead'.symm
        declaring := hdeclaring.trans hdeclaring'.symm }
    exact halike.classesFrom_eq following

/-- An open condition is the same business whichever keyword opened it. -/
theorem classesAfter_semicolon_eq_open_condition :
    EndsWithSemicolon (scan "while(a;".toList).lexemes ∧
      EndsWithSemicolon (scan "if(;".toList).lexemes ∧
      ∀ following, classesAfter (scan "while(a;".toList).lexemes following =
        classesAfter (scan "if(;".toList).lexemes following := by
  have hwhile : (scan "while(a;".toList).lexemes =
      [⟨.word, "while", ⟨1, 0⟩, 5⟩, ⟨.punctuation .openParen, "(", ⟨1, 5⟩, 1⟩,
        ⟨.word, "a", ⟨1, 6⟩, 1⟩, ⟨.punctuation .semicolon, ";", ⟨1, 7⟩, 1⟩] := by
    decide +kernel
  have hif : (scan "if(;".toList).lexemes =
      [⟨.word, "if", ⟨1, 0⟩, 2⟩, ⟨.punctuation .openParen, "(", ⟨1, 2⟩, 1⟩,
        ⟨.punctuation .semicolon, ";", ⟨1, 3⟩, 1⟩] := by
    decide +kernel
  have hkeyword : Vocabulary.reservedClass? "while" = some .keyword := by decide
  have hopens : Vocabulary.role "while" = .opensCondition := by decide
  have hname : Vocabulary.reservedClass? "a" = none := by decide
  have hfirst : contextAfter {} [] (scan "while(a;".toList).lexemes =
      { parens := [.condition] } := by
    rw [hwhile]
    simp [contextAfter, headsCall, Context.step, Context.word, Context.name, Context.reserved,
      Context.punctuation, Scopes.contains, Lexeme.isComment, Lexeme.isOperand,
      hkeyword, hopens, hname]
  have hsecond : contextAfter {} [] (scan "if(;".toList).lexemes =
      { parens := [.condition] } := by
    rw [hif]
    rfl
  have hends : EndsWithSemicolon (scan "while(a;".toList).lexemes := by
    rw [EndsWithSemicolon, hwhile]
    rfl
  have hends' : EndsWithSemicolon (scan "if(;".toList).lexemes := by
    rw [EndsWithSemicolon, hif]
    rfl
  refine ⟨hends, hends', (classesAfter_semicolon_eq_iff hends hends' ?_).2 ?_⟩
  · rw [hfirst, hsecond]
    exact ⟨.rfl, .rfl, .nil⟩
  · rw [hfirst, hsecond]
    exact ⟨rfl, rfl, rfl, fun _ => Iff.rfl⟩

/-- The parenthesis of a condition stays open beyond the semicolon, and a later one
that nothing in its own statement opened closes it. -/
theorem classesAfter_semicolon_differ :
    ¬ ∀ first second : List Lexeme, EndsWithSemicolon first → EndsWithSemicolon second →
      (contextAfter {} [] first).SameNames (contextAfter {} [] second) →
      ∀ following, classesAfter first following = classesAfter second following := by
  intro hisolated
  have hif : (scan "if(a;".toList).lexemes =
      [⟨.word, "if", ⟨1, 0⟩, 2⟩, ⟨.punctuation .openParen, "(", ⟨1, 2⟩, 1⟩,
        ⟨.word, "a", ⟨1, 3⟩, 1⟩, ⟨.punctuation .semicolon, ";", ⟨1, 4⟩, 1⟩] := by
    decide +kernel
  have hsemicolon : (scan ";".toList).lexemes = [⟨.punctuation .semicolon, ";", ⟨1, 0⟩, 1⟩] := by
    decide +kernel
  have hlater : (scan ")foo $0;".toList).lexemes =
      [⟨.punctuation .closeParen, ")", ⟨1, 0⟩, 1⟩, ⟨.word, "foo", ⟨1, 1⟩, 3⟩,
        ⟨.hardwareQubit, "$0", ⟨1, 5⟩, 2⟩, ⟨.punctuation .semicolon, ";", ⟨1, 7⟩, 1⟩] := by
    decide +kernel
  have hkeyword : Vocabulary.reservedClass? "if" = some .keyword := by decide
  have hopens : Vocabulary.role "if" = .opensCondition := by decide
  have hname : Vocabulary.reservedClass? "a" = none := by decide
  have hcall : Vocabulary.reservedClass? "foo" = none := by decide
  have hopen : contextAfter {} [] (scan "if(a;".toList).lexemes = { parens := [.condition] } := by
    rw [hif]
    simp [contextAfter, headsCall, Context.step, Context.word, Context.name, Context.reserved,
      Context.punctuation, Scopes.contains, Lexeme.isComment, Lexeme.isOperand,
      hkeyword, hopens, hname]
  have hempty : contextAfter {} [] (scan ";".toList).lexemes = {} := by
    rw [hsemicolon]
    rfl
  have hnames : (contextAfter {} [] (scan "if(a;".toList).lexemes).SameNames
      (contextAfter {} [] (scan ";".toList).lexemes) := by
    rw [hopen, hempty]
    exact ⟨.rfl, .rfl, .nil⟩
  have hends : EndsWithSemicolon (scan "if(a;".toList).lexemes := by
    rw [EndsWithSemicolon, hif]
    rfl
  have hends' : EndsWithSemicolon (scan ";".toList).lexemes := by
    rw [EndsWithSemicolon, hsemicolon]
    rfl
  have hsame := hisolated _ _ hends hends' hnames (scan ")foo $0;".toList).lexemes
  have hgate : classesAfter (scan "if(a;".toList).lexemes (scan ")foo $0;".toList).lexemes =
      [.punctuation, .gate, .hardwareQubit, .punctuation] := by
    rw [classesAfter_eq_classesFrom, hopen, hlater]
    simp [classesFrom, headsCall, Context.step, Context.word, Context.name, Context.punctuation,
      Lexeme.isComment, Lexeme.isOperand, hcall]
  have hidentifier : classesAfter (scan ";".toList).lexemes (scan ")foo $0;".toList).lexemes =
      [.punctuation, .identifier, .hardwareQubit, .punctuation] := by
    rw [classesAfter_eq_classesFrom, hempty, hlater]
    simp [classesFrom, headsCall, Context.step, Context.word, Context.name, Context.punctuation,
      Scopes.contains, Lexeme.isComment, Lexeme.isOperand, hcall]
  rw [hgate, hidentifier] at hsame
  cases hsame

end QasmHighlight
