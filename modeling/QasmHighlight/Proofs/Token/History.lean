import QasmHighlight.Proofs.Token.CutString

/-!
# What earlier lexemes say about a name

Classification reaches a lexeme in the context that the lexemes before it leave.
The equations for a step say which lexemes change the gates, the registers and
the expectation of a gate name: a name that defines a gate, a name that declares
a register, a brace and a word.  Along a run they turn these parts of the context
into statements about the lexemes read so far.
-/

namespace QasmHighlight

/-! ## One step -/

/-- A word that is not reserved. -/
def Lexeme.isName (lexeme : Lexeme) : Bool :=
  lexeme.kind = .word && (Vocabulary.reservedClass? lexeme.text).isNone

theorem Lexeme.isName_iff {lexeme : Lexeme} :
    lexeme.isName = true ↔
      lexeme.kind = .word ∧ Vocabulary.reservedClass? lexeme.text = none := by
  simp [Lexeme.isName]

theorem Lexeme.exists_reservedClass {lexeme : Lexeme} (hkind : lexeme.kind = .word)
    (hname : lexeme.isName = false) :
    ∃ reservedClass, Vocabulary.reservedClass? lexeme.text = some reservedClass := by
  apply Option.ne_none_iff_exists'.1
  intro hnone
  rw [Lexeme.isName_iff.2 ⟨hkind, hnone⟩] at hname
  cases hname

theorem Vocabulary.role_eq_namesGate_iff (word : String) :
    Vocabulary.role word = .namesGate ↔ word = "gate" := by
  unfold Vocabulary.role
  split_ifs <;> simp_all

/-- The scopes past a lexeme that declares nothing. -/
def Scopes.past (scopes : Scopes) : LexemeKind → Scopes
  | .punctuation .openBrace => scopes.enter
  | .punctuation .closeBrace => scopes.leave
  | _ => scopes

namespace Context

def definesGate (context : Context) (lexeme : Lexeme) : Bool :=
  lexeme.isName && context.namingGate

def declaresRegister (context : Context) (lexeme : Lexeme) : Bool :=
  lexeme.isName && !context.namingGate && context.declaring = some context.bracketDepth

theorem step_of_isName (context : Context) {lexeme : Lexeme} (hname : lexeme.isName = true)
    (call : Bool) : context.step lexeme call = context.name lexeme.text call := by
  obtain ⟨hkind, hreserved⟩ := Lexeme.isName_iff.1 hname
  simp [step, hkind, word, hreserved]

theorem step_of_reserved (context : Context) {lexeme : Lexeme} (hkind : lexeme.kind = .word)
    {reservedClass : TokenClass}
    (hreserved : Vocabulary.reservedClass? lexeme.text = some reservedClass) (call : Bool) :
    context.step lexeme call = (reservedClass, context.reserved (Vocabulary.role lexeme.text)) := by
  simp [step, hkind, word, hreserved]

/-- The order in which the uses of a name are told apart. -/
theorem class_step_of_isName (context : Context) {lexeme : Lexeme}
    (hname : lexeme.isName = true) (call : Bool) :
    (context.step lexeme call).1 =
      if context.definesGate lexeme then .gate
      else if context.declaresRegister lexeme then .identifier
      else if context.gates.contains lexeme.text || (context.atHead && call) then .gate
      else if context.scopes.contains lexeme.text then .register
      else .identifier := by
  rw [context.step_of_isName hname]
  simp only [definesGate, declaresRegister, hname, Bool.true_and, name]
  split_ifs <;> simp_all

theorem names_step_of_not_isName (context : Context) {lexeme : Lexeme}
    (hname : lexeme.isName = false) (call : Bool) :
    (context.step lexeme call).2.gates = context.gates ∧
      (context.step lexeme call).2.scopes = context.scopes.past lexeme.kind := by
  cases hkind : lexeme.kind with
  | word =>
      obtain ⟨reservedClass, hreserved⟩ := Lexeme.exists_reservedClass hkind hname
      rw [context.step_of_reserved hkind hreserved]
      exact ⟨rfl, rfl⟩
  | punctuation mark =>
      simp only [step, hkind]
      cases mark <;> exact ⟨rfl, rfl⟩
  | _ => simp [step, hkind, operator, Scopes.past]

theorem gates_step (context : Context) (lexeme : Lexeme) (call : Bool) :
    (context.step lexeme call).2.gates =
      if context.definesGate lexeme then context.gates.insert lexeme.text else context.gates := by
  cases hname : lexeme.isName with
  | false =>
      rw [(context.names_step_of_not_isName hname call).1]
      simp [definesGate, hname]
  | true =>
      rw [context.step_of_isName hname, name_snd_eq]
      simp only [definesGate, hname, Bool.true_and]
      split_ifs <;> rfl

theorem scopes_step (context : Context) (lexeme : Lexeme) (call : Bool) :
    (context.step lexeme call).2.scopes =
      if context.declaresRegister lexeme then context.scopes.declare lexeme.text
      else context.scopes.past lexeme.kind := by
  cases hname : lexeme.isName with
  | false =>
      rw [(context.names_step_of_not_isName hname call).2]
      simp [declaresRegister, hname]
  | true =>
      have hpast : context.scopes.past lexeme.kind = context.scopes := by
        rw [(Lexeme.isName_iff.1 hname).1]
        rfl
      rw [context.step_of_isName hname, name_snd_eq, hpast]
      simp only [declaresRegister, hname, Bool.true_and]
      split_ifs <;> simp_all

/-- Every word takes the place of an expected gate name; `gate` asks for a new one. -/
theorem namingGate_step (context : Context) (lexeme : Lexeme) (call : Bool) :
    (context.step lexeme call).2.namingGate =
      if lexeme.kind = .word then decide (lexeme.text = "gate") else context.namingGate := by
  cases hkind : lexeme.kind with
  | word =>
      rw [if_pos rfl]
      cases hreserved : Vocabulary.reservedClass? lexeme.text with
      | some reservedClass =>
          rw [context.step_of_reserved hkind hreserved]
          simp only [reserved, Vocabulary.role_eq_namesGate_iff]
      | none =>
          have hgate : lexeme.text ≠ "gate" := by
            intro hgate
            rw [hgate] at hreserved
            exact absurd hreserved (by decide)
          rw [context.step_of_isName (Lexeme.isName_iff.2 ⟨hkind, hreserved⟩), name_snd_eq,
            decide_eq_false hgate]
          split_ifs <;> rfl
  | punctuation mark =>
      simp only [step, hkind]
      cases mark <;> rfl
  | _ =>
      simp only [step, hkind]
      rfl

end Context

/-! ## Along a run -/

/-- The context in which classification reaches the lexeme at a place. -/
def contextAt (lexemes : List Lexeme) (place : Nat) : Context :=
  ((lexemes.take place).zipIdx.foldl
    (fun (found : Classified) x => found.step (Lookahead.ofLexemes lexemes) x.1 x.2) {}).context

theorem Classified.context_foldl_step (ahead : Lookahead) (lexemes : List Lexeme) (start : Nat)
    (found : Classified) :
    ((lexemes.zipIdx start).foldl
      (fun (found : Classified) x => found.step ahead x.1 x.2) found).context =
      contextAfter found.context [] lexemes := by
  induction lexemes generalizing start found with
  | nil => rfl
  | cons lexeme rest ih =>
      rw [List.zipIdx_cons, List.foldl_cons, ih, contextAfter,
        found.context.step_snd lexeme _ (ahead.headsCallAt start)]
      rfl

theorem contextAt_eq_contextAfter (lexemes : List Lexeme) (place : Nat) :
    contextAt lexemes place = contextAfter {} [] (lexemes.take place) :=
  Classified.context_foldl_step _ _ _ _

@[simp] theorem contextAt_zero (lexemes : List Lexeme) : contextAt lexemes 0 = {} :=
  rfl

section

variable {lexemes : List Lexeme} {place : Nat}

theorem contextAt_succ {lexeme : Lexeme} (hlexeme : lexemes[place]? = some lexeme) :
    contextAt lexemes (place + 1) = ((contextAt lexemes place).step lexeme false).2 := by
  rw [contextAt_eq_contextAfter, contextAt_eq_contextAfter, List.take_add_one, hlexeme]
  exact contextAfter_concat {} (lexemes.take place) lexeme

private theorem take_succ_of_getElem?_eq_none (hnone : lexemes[place]? = none) :
    lexemes.take (place + 1) = lexemes.take place := by
  rw [List.take_add_one, hnone]
  exact List.append_nil _

theorem contextAt_succ_of_none (hnone : lexemes[place]? = none) :
    contextAt lexemes (place + 1) = contextAt lexemes place := by
  rw [contextAt_eq_contextAfter, contextAt_eq_contextAfter, take_succ_of_getElem?_eq_none hnone]

theorem eq_take_append_cons_drop {lexeme : Lexeme} (hlexeme : lexemes[place]? = some lexeme) :
    lexemes = lexemes.take place ++ lexeme :: lexemes.drop (place + 1) ∧
      (lexemes.take place).length = place := by
  obtain ⟨hplace, rfl⟩ := List.getElem?_eq_some_iff.1 hlexeme
  rw [List.getElem_cons_drop, List.take_append_drop]
  exact ⟨rfl, List.length_take_of_le (Nat.le_of_lt hplace)⟩

theorem headsCallAt_eq_headsCall {lexeme : Lexeme} (hlexeme : lexemes[place]? = some lexeme) :
    (Lookahead.ofLexemes lexemes).headsCallAt place = headsCall (lexemes.drop (place + 1)) := by
  obtain ⟨hsplit, hlength⟩ := eq_take_append_cons_drop hlexeme
  have hcall := Lookahead.headsCallAt_ofLexemes (lexemes.take place)
    (lexemes.drop (place + 1)) lexeme
  rwa [← hsplit, hlength] at hcall

theorem classAt?_eq_step {lexeme : Lexeme} (hlexeme : lexemes[place]? = some lexeme) :
    classAt? lexemes place =
      some ((contextAt lexemes place).step lexeme
        ((Lookahead.ofLexemes lexemes).headsCallAt place)).1 := by
  obtain ⟨hsplit, hlength⟩ := eq_take_append_cons_drop hlexeme
  have hclass := classAt?_length (lexemes.take place) (lexemes.drop (place + 1)) lexeme
  rw [← hsplit, hlength] at hclass
  rw [hclass, headsCallAt_eq_headsCall hlexeme, contextAt_eq_contextAfter]

theorem classAt?_eq_none (hnone : lexemes[place]? = none) : classAt? lexemes place = none := by
  have hlength : (classify lexemes).length = lexemes.length := by
    rw [classify_eq_zipWith, List.length_zipWith, length_classesFrom, Nat.min_self]
  rw [List.getElem?_eq_none_iff] at hnone
  rw [classAt?, List.getElem?_eq_none (hlength.trans_le hnone), Option.map_none]

end

/-- The text of the last word. -/
def lastWord? (lexemes : List Lexeme) : Option String :=
  (lexemes.filter (·.kind = .word)).getLast?.map (·.text)

theorem lastWord?_concat (before : List Lexeme) (lexeme : Lexeme) :
    lastWord? (before ++ [lexeme]) =
      if lexeme.kind = .word then some lexeme.text else lastWord? before := by
  unfold lastWord?
  rw [List.filter_append]
  by_cases hkind : lexeme.kind = .word
  · simp [hkind]
  · simp [hkind]

theorem namingGate_contextAt_iff (lexemes : List Lexeme) (place : Nat) :
    (contextAt lexemes place).namingGate = true ↔
      lastWord? (lexemes.take place) = some "gate" := by
  rw [contextAt_eq_contextAfter]
  induction lexemes.take place using List.reverseRecOn with
  | nil => simp [contextAfter, lastWord?]
  | append_singleton before lexeme ih =>
      rw [contextAfter_concat, Context.namingGate_step, lastWord?_concat]
      by_cases hkind : lexeme.kind = .word
      · simp [hkind]
      · simpa [hkind] using ih

/-! ## Definitions and declarations -/

/-- The lexeme at a place is a word that is not reserved, with the given text. -/
def NameAt (lexemes : List Lexeme) (place : Nat) (name : String) : Prop :=
  ∃ lexeme, lexemes[place]? = some lexeme ∧ lexeme.isName = true ∧ lexeme.text = name

/-- A name that comes right after `gate`, other lexemes than words aside. -/
structure DefinesGateAt (lexemes : List Lexeme) (place : Nat) (name : String) : Prop where
  nameAt : NameAt lexemes place name
  named : lastWord? (lexemes.take place) = some "gate"

/-- A name that is expected by a register declaration and that no `gate` names. -/
structure DeclaresAt (lexemes : List Lexeme) (place : Nat) (name : String) : Prop where
  nameAt : NameAt lexemes place name
  expected : (contextAt lexemes place).declaring = some (contextAt lexemes place).bracketDepth
  not_named : lastWord? (lexemes.take place) ≠ some "gate"

section

variable {lexemes : List Lexeme} {place : Nat}

theorem nameAt_iff {lexeme : Lexeme} (hlexeme : lexemes[place]? = some lexeme) (name : String) :
    NameAt lexemes place name ↔ lexeme.isName = true ∧ lexeme.text = name := by
  simp [NameAt, hlexeme]

theorem not_nameAt (hnone : lexemes[place]? = none) (name : String) :
    ¬ NameAt lexemes place name := by
  simp [NameAt, hnone]

theorem definesGateAt_iff {lexeme : Lexeme} (hlexeme : lexemes[place]? = some lexeme)
    (name : String) :
    DefinesGateAt lexemes place name ↔
      (contextAt lexemes place).definesGate lexeme = true ∧ lexeme.text = name := by
  have hgate := namingGate_contextAt_iff lexemes place
  have hname := nameAt_iff hlexeme name
  constructor
  · intro hdefines
    obtain ⟨hisName, htext⟩ := hname.1 hdefines.nameAt
    exact ⟨by simp [Context.definesGate, hisName, hgate.2 hdefines.named], htext⟩
  · rintro ⟨hdefines, htext⟩
    obtain ⟨hisName, hnaming⟩ := (Bool.and_eq_true _ _).mp hdefines
    exact ⟨hname.2 ⟨hisName, htext⟩, hgate.1 hnaming⟩

theorem declaresAt_iff {lexeme : Lexeme} (hlexeme : lexemes[place]? = some lexeme)
    (name : String) :
    DeclaresAt lexemes place name ↔
      (contextAt lexemes place).declaresRegister lexeme = true ∧ lexeme.text = name := by
  have hgate := namingGate_contextAt_iff lexemes place
  have hname := nameAt_iff hlexeme name
  constructor
  · intro hdeclares
    obtain ⟨hisName, htext⟩ := hname.1 hdeclares.nameAt
    have hnaming := eq_false_of_ne_true (mt hgate.1 hdeclares.not_named)
    exact ⟨by simp [Context.declaresRegister, hisName, hnaming, hdeclares.expected], htext⟩
  · rintro ⟨hdeclares, htext⟩
    simp only [Context.declaresRegister, Bool.and_eq_true, Bool.not_eq_true',
      decide_eq_true_eq] at hdeclares
    obtain ⟨⟨hisName, hnaming⟩, hexpected⟩ := hdeclares
    have hnot_named := mt hgate.2 (ne_true_of_eq_false hnaming)
    exact ⟨hname.2 ⟨hisName, htext⟩, hexpected, hnot_named⟩

end

end QasmHighlight
