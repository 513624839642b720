import Mathlib
import ScriptCase.Arguments.Parse
import ScriptCase.Result

/-!
# One switch more on a command line

Reading a command line is a fold over acts, a switch and its value being one act (`Grammar.parseFrom_eq_foldlM`). From
this it follows what is read when one switch more stands behind the command that formats scripts: the same request, but
scripts are only checked (`FormatLine.check`). The reading that looks for the workspace passes over the switch
(`FormatLine.given_check`). Every command line that asks for scripts to be formatted has a place for the switch
(`FormatLine.exists_of_parse`).
-/

namespace ScriptCase

/-- What is done at a word of a command line, or at a switch and its value. -/
inductive Grammar.Act where
  | operand (word : String)
  | terminator (more : Bool)
  | unknown (word : String)
  | switch (s : Switch) (value : Option String)
  | fault (f : UsageFault)
  /-- The command and everything behind it. -/
  | command (words : List String)

namespace Grammar

/-! ## Reading as a fold -/

/-- The act at a word of short names. -/
def clusterAct (g : Grammar) (s : Switch) (rest : Text) : Act :=
  match g.clusterFault? s rest with
  | some f => .fault f
  | none => .switch s none

/-- The act at a switch with a value joined to it. -/
def joinedAct (s : Switch) (value : String) : Act :=
  if s.takesValue then .switch s (some value) else .fault (.needlessValue s value)

/-- The act at a switch that is to have the next word for its value. -/
def valuedAct (s : Switch) (value : String) (w : Word) : Act :=
  if w = .operand then .switch s (some value) else .fault (.missingValue s)

/-- The acts at the words of a command line. -/
def acts (g : Grammar) : List (String × Word) → List Act
  | [] => []
  | (word, .operand) :: rest =>
    if g.operands = .command then [.command (word :: rest.map (·.1))] else .operand word :: g.acts rest
  | (word, .terminator) :: rest =>
    if g.operands = .command ∧ rest ≠ [] then [.command (word :: rest.map (·.1))]
    else .terminator (!rest.isEmpty) :: g.acts rest
  | (word, .unknown) :: rest => .unknown word :: g.acts rest
  | (_, .cluster s chars) :: rest => g.clusterAct s chars :: g.acts rest
  | (_, .switch s (some value)) :: rest => joinedAct s value :: g.acts rest
  | (_, .switch s none) :: (value, w) :: rest =>
    if s.takesValue then valuedAct s value w :: g.acts rest else .switch s none :: g.acts ((value, w) :: rest)
  | [(_, .switch s none)] => [if s.takesValue then .fault (.missingValue s) else .switch s none]

/-- Performs an act. -/
def perform (g : Grammar) (p : Parsed) : Act → Except Interruption Parsed
  | .operand word => .ok (g.takeOperand p word)
  | .terminator more => .ok (g.takeTerminator p more)
  | .unknown word => .ok (p.close.addExtra word)
  | .switch s value => g.take p s value
  | .fault f => .error (.fault g f)
  | .command words => .ok { p with operands := words }

variable {g : Grammar}

theorem perform_clusterAct (g : Grammar) (p : Parsed) (s : Switch) (rest : Text) :
    g.perform p (g.clusterAct s rest) = g.takeCluster p s rest := by
  unfold clusterAct takeCluster
  cases g.clusterFault? s rest <;> rfl

theorem perform_joinedAct (g : Grammar) (p : Parsed) (s : Switch) (value : String) :
    g.perform p (joinedAct s value) = g.takeJoined p s value := by
  unfold joinedAct takeJoined
  cases s.takesValue <;> rfl

/-- The words are acted on one after another. -/
theorem parseFrom_eq_foldlM (g : Grammar) (p : Parsed) (xs : List (String × Word)) :
    g.parseFrom p xs = (g.acts xs).foldlM g.perform p := by
  fun_induction g.parseFrom p xs with
  | case1 p => rfl
  | case2 p word rest h => simp only [acts, if_pos h]; rfl
  | case3 p word rest h ih => simp only [acts, if_neg h]; exact ih
  | case4 p word rest h => simp only [acts, if_pos h]; rfl
  | case5 p word rest h ih => simp only [acts, if_neg h]; exact ih
  | case6 p word rest ih => exact ih
  | case7 p word s chars rest ih =>
    rw [acts, List.foldlM_cons, perform_clusterAct]
    exact bind_congr ih
  | case8 p word s value rest ih =>
    rw [acts, List.foldlM_cons, perform_joinedAct]
    exact bind_congr ih
  | case9 p word s value rest h ih =>
    simp only [acts, if_pos h, valuedAct, if_true, List.foldlM_cons]
    exact bind_congr ih
  | case10 p word s value w rest h hw => simp only [acts, if_pos h, valuedAct, if_neg hw]; rfl
  | case11 p word s value w rest h ih =>
    simp only [acts, if_neg h, List.foldlM_cons]
    exact bind_congr ih
  | case12 p word s h => simp only [acts, if_pos h]; rfl
  | case13 p word s h =>
    simp only [acts, if_neg h, List.foldlM_cons, List.foldlM_nil]
    exact (bind_pure (g.take p s none)).symm

/-! ## What was given, and the rest -/

/-- What was given, after an act. -/
def accept (g : Grammar) (gs : List Given) : Act → Except Interruption (List Given)
  | .switch s value => (g.take { Parsed.empty with given := gs } s value).map (·.given)
  | .fault f => .error (.fault g f)
  | _ => .ok gs

/-- Everything else, after an act. -/
def move (g : Grammar) (p : Parsed) : Act → Parsed
  | .operand word => g.takeOperand p word
  | .terminator more => g.takeTerminator p more
  | .unknown word => p.close.addExtra word
  | .switch _ _ => p.close
  | .fault _ => p
  | .command words => { p with operands := words }

theorem move_given (g : Grammar) (p : Parsed) (gs : List Given) (a : Act) :
    g.move { p with given := gs } a = { g.move p a with given := gs } := by
  obtain ⟨given, operands, extras, closed⟩ := p
  cases a with
  | operand word =>
    simp only [move, takeOperand]
    cases g.operands with
    | none => rfl
    | paths | command => cases closed <;> rfl
  | terminator more =>
    simp only [move, takeTerminator]
    cases g.operands with
    | none => rfl
    | paths | command => cases closed || (operands.isEmpty && !more) <;> rfl
  | unknown | switch | fault | command => rfl

theorem perform_eq (g : Grammar) (p : Parsed) (a : Act) :
    g.perform p a = (g.accept p.given a).map fun gs => { g.move p a with given := gs } := by
  cases a with
  | switch s value =>
    simp only [perform, accept, take, move]
    cases g.checkChoice s (value.filter (· != "--")) with
    | error i => rfl
    | ok _ =>
      have hrival : g.checkRival { Parsed.empty with given := p.given } s = g.checkRival p s := rfl
      rw [hrival]
      cases g.checkRival p s with
      | error i => rfl
      | ok _ => cases s <;> rfl
  | operand word => exact congrArg Except.ok (move_given g p p.given (.operand word))
  | terminator more => exact congrArg Except.ok (move_given g p p.given (.terminator more))
  | unknown | fault | command => rfl

theorem foldl_move_given (g : Grammar) (as : List Act) (p : Parsed) (gs : List Given) :
    as.foldl g.move { p with given := gs } = { as.foldl g.move p with given := gs } := by
  induction as generalizing p with
  | nil => rfl
  | cons a as ih => rw [List.foldl_cons, List.foldl_cons, move_given, ih]

/-- What was given and the rest do not depend on each other. -/
theorem foldlM_perform (g : Grammar) (as : List Act) (p : Parsed) :
    as.foldlM g.perform p =
      (as.foldlM g.accept p.given).map fun gs => { as.foldl g.move p with given := gs } := by
  induction as generalizing p with
  | nil => rfl
  | cons a as ih =>
    rw [List.foldlM_cons, List.foldlM_cons, perform_eq]
    cases g.accept p.given a with
    | error i => rfl
    | ok gs =>
      refine (ih _).trans ?_
      rw [foldl_move_given]
      rfl

theorem map_given_parseFrom (g : Grammar) (p : Parsed) (xs : List (String × Word)) :
    (g.parseFrom p xs).map (·.given) = (g.acts xs).foldlM g.accept p.given := by
  rw [parseFrom_eq_foldlM, foldlM_perform]
  cases (g.acts xs).foldlM g.accept p.given <;> rfl

theorem checkRival_eq_ok_iff {p : Parsed} {s : Switch} :
    g.checkRival p s = .ok () ↔ ∀ r, s.rival? = some r → Given.has r p.given = false := by
  unfold checkRival
  cases s.rival? with
  | none => simp
  | some r => cases h : Given.has r p.given <;> simp [h]

theorem has_append (s : Switch) (gs gs' : List Given) : Given.has s (gs ++ gs') = (Given.has s gs || Given.has s gs') :=
  List.any_append

/-- A switch is added to those that were given; others before these make no difference unless they exclude it. -/
theorem accept_append {gs gs' : List Given} {a : Act} (h : g.accept gs a = .ok gs') :
    ∃ new, gs' = gs ++ new ∧ ∀ pre : List Given, (∀ x ∈ new, ∀ r, x.switch.rival? = some r → Given.has r pre = false) →
      g.accept (pre ++ gs) a = .ok (pre ++ gs') := by
  cases a with
  | switch s value =>
    simp only [accept, take] at h ⊢
    cases hchoice : g.checkChoice s (value.filter (· != "--")) with
    | error i => rw [hchoice] at h; cases h
    | ok _ =>
      cases hrival : g.checkRival { Parsed.empty with given := gs } s with
      | error i => rw [hchoice, hrival] at h; cases h
      | ok _ =>
        rw [hchoice, hrival] at h
        have hnew : gs' = gs ++ [⟨s, value.filter (· != "--")⟩] := by
          cases s with
          | help | version => cases h
          | _ => exact (Except.ok.inj h).symm
        refine ⟨_, hnew, fun pre hpre => ?_⟩
        have hrival' : g.checkRival { Parsed.empty with given := pre ++ gs } s = .ok () := by
          refine checkRival_eq_ok_iff.mpr fun r hr => ?_
          rw [has_append, hpre _ List.mem_cons_self r hr, checkRival_eq_ok_iff.mp hrival r hr]
          rfl
        rw [hrival', hnew, ← List.append_assoc]
        cases s with
        | help | version => cases h
        | _ => rfl
  | fault f => cases h
  | operand | terminator | unknown | command =>
    obtain rfl := Except.ok.inj h
    exact ⟨[], (List.append_nil _).symm, fun pre _ => rfl⟩

theorem foldlM_accept_append {gs gs' : List Given} {as : List Act} (h : as.foldlM g.accept gs = .ok gs') :
    ∃ new, gs' = gs ++ new ∧ ∀ pre : List Given, (∀ x ∈ new, ∀ r, x.switch.rival? = some r → Given.has r pre = false) →
      as.foldlM g.accept (pre ++ gs) = .ok (pre ++ gs') := by
  induction as generalizing gs with
  | nil =>
    obtain rfl := Except.ok.inj h
    exact ⟨[], (List.append_nil _).symm, fun pre _ => rfl⟩
  | cons a as ih =>
    rw [List.foldlM_cons, bind_eq_ok_iff] at h
    obtain ⟨gs₁, ha, h⟩ := h
    obtain ⟨new, rfl, hnew⟩ := accept_append ha
    obtain ⟨more, rfl, hmore⟩ := ih h
    refine ⟨new ++ more, List.append_assoc _ _ _, fun pre hpre => ?_⟩
    rw [List.foldlM_cons, bind_eq_ok_iff]
    exact ⟨_, hnew pre fun x hx => hpre x (List.mem_append_left _ hx),
      hmore pre fun x hx => hpre x (List.mem_append_right _ hx)⟩

/-! ## The acts at words one behind the other -/

/-- A word that is no switch may be the value of one, so that the words behind it stand for themselves. -/
theorem acts_append_operand (hg : g.operands ≠ .command) (xs : List (String × Word)) (word : String)
    (ys : List (String × Word)) :
    g.acts (xs ++ (word, .operand) :: ys) = g.acts (xs ++ [(word, .operand)]) ++ g.acts ys := by
  induction xs using acts.induct g with
  | case1 => simp [acts, hg]
  | case2 _ _ h => exact absurd h hg
  | case3 w rest h ih => simp only [List.cons_append, acts, if_neg hg, ih]
  | case4 _ _ h => exact absurd h.1 hg
  | case5 w rest h ih =>
    have hempty : ∀ zs, (rest ++ (word, Word.operand) :: zs).isEmpty = false := by simp
    simp only [List.cons_append, acts, hg, false_and, if_false, ih, hempty]
  | case6 w rest ih => simp only [List.cons_append, acts, ih]
  | case7 w s chars rest ih => simp only [List.cons_append, acts, ih]
  | case8 w s value rest ih => simp only [List.cons_append, acts, ih]
  | case9 w s value w' rest h ih => simp only [List.cons_append, acts, if_pos h, ih]
  | case10 w s value w' rest h ih =>
    simp only [List.cons_append] at ih
    simp only [List.cons_append, acts, if_neg h, ih]
  | case11 w s =>
    by_cases h : s.takesValue = true
    · simp [acts, valuedAct, h]
    · simp [acts, h, hg]

theorem acts_plain {s : Switch} (h : s.takesValue = false) (word : String) (xs : List (String × Word)) :
    g.acts ((word, .switch s none) :: xs) = .switch s none :: g.acts xs := by
  cases xs with
  | nil => simp [acts, h]
  | cons x xs => simp [acts, h]

theorem acts_joined {s : Switch} (h : s.takesValue = true) (word value : String) (xs : List (String × Word)) :
    g.acts ((word, .switch s (some value)) :: xs) = .switch s (some value) :: g.acts xs := by
  rw [acts, joinedAct, if_pos h]

theorem acts_valued {s : Switch} (h : s.takesValue = true) (word value : String) (xs : List (String × Word)) :
    g.acts ((word, .switch s none) :: (value, .operand) :: xs) = .switch s (some value) :: g.acts xs := by
  rw [acts, if_pos h, valuedAct, if_pos rfl]

theorem exists_of_foldlM_cons {a : Act} {as : List Act} {p p' : Parsed}
    (h : (a :: as).foldlM g.perform p = .ok p') : ∃ q, g.perform p a = .ok q ∧ as.foldlM g.perform q = .ok p' := by
  rwa [List.foldlM_cons, bind_eq_ok_iff] at h

/-- The words are switches with their values and nothing else. -/
def OnlySwitches (g : Grammar) (xs : List (String × Word)) : Prop :=
  (∀ ys, g.acts (xs ++ ys) = g.acts xs ++ g.acts ys) ∧ ∀ x ∈ xs, x.2 ≠ .terminator

theorem OnlySwitches.cons {x : String × Word} {xs : List (String × Word)} {a : Act} (h : g.OnlySwitches xs)
    (ha : ∀ ys, g.acts (x :: (xs ++ ys)) = a :: g.acts (xs ++ ys)) (hx : x.2 ≠ .terminator) :
    g.OnlySwitches (x :: xs) := by
  refine ⟨fun ys => ?_, fun y hy => ?_⟩
  · have hxs := ha []
    rw [List.append_nil] at hxs
    rw [List.cons_append, ha, h.1, hxs, List.cons_append]
  · rcases List.mem_cons.mp hy with rfl | hy
    · exact hx
    · exact h.2 y hy

/-- What stands before a command are switches. -/
theorem onlySwitches_of_foldlM (hg : g.operands = .command) {p p' : Parsed} {xs : List (String × Word)}
    (h : (g.acts xs).foldlM g.perform p = .ok p') (ho : p'.operands = []) (he : p'.extras = []) :
    g.OnlySwitches xs := by
  induction xs using acts.induct g generalizing p with
  | case1 => exact ⟨fun ys => rfl, fun x hx => absurd hx List.not_mem_nil⟩
  | case2 w rest hc =>
    rw [acts, if_pos hc] at h
    obtain rfl := Except.ok.inj h
    cases ho
  | case3 w rest hc => exact absurd hg hc
  | case4 w rest hc =>
    rw [acts, if_pos hc] at h
    obtain rfl := Except.ok.inj h
    cases ho
  | case5 w rest hc =>
    -- Two hyphens at the end are a word that nothing asks for.
    obtain rfl : rest = [] := by simpa [hg] using hc
    have hlast : p' = g.takeTerminator p false := by
      simp only [acts, ne_eq, not_true_eq_false, and_false, if_false] at h
      exact (Except.ok.inj h).symm
    have hop : p.operands = [] := by
      rw [hlast, takeTerminator, hg] at ho
      dsimp only at ho
      split at ho <;> exact ho
    rw [hlast, takeTerminator, hg] at he
    simp [hop, Parsed.addExtra] at he
  | case6 w rest ih =>
    obtain ⟨q, -, hq⟩ := exists_of_foldlM_cons h
    exact (ih hq).cons (fun ys => rfl) (by simp)
  | case7 w s chars rest ih =>
    obtain ⟨q, -, hq⟩ := exists_of_foldlM_cons h
    exact (ih hq).cons (fun ys => rfl) (by simp)
  | case8 w s value rest ih =>
    obtain ⟨q, -, hq⟩ := exists_of_foldlM_cons h
    exact (ih hq).cons (fun ys => rfl) (by simp)
  | case9 w s value w' rest hv ih =>
    rw [acts, if_pos hv] at h
    obtain ⟨q, ha, hq⟩ := exists_of_foldlM_cons h
    have hw : w' = .operand := by
      by_contra hne
      rw [valuedAct, if_neg hne] at ha
      cases ha
    obtain ⟨happ, hterm⟩ := ih hq
    refine ⟨fun ys => ?_, ?_⟩
    · simp only [List.cons_append, acts, if_pos hv, happ]
    · simpa [hw] using hterm
  | case10 w s value w' rest hv ih =>
    have hs : s.takesValue = false := by simpa using hv
    rw [acts_plain hs] at h
    obtain ⟨q, -, hq⟩ := exists_of_foldlM_cons h
    exact (ih hq).cons (fun ys => acts_plain hs w _) (by simp)
  | case11 w s =>
    cases hs : s.takesValue with
    | true =>
      rw [acts, if_pos hs] at h
      cases h
    | false =>
      refine ⟨fun ys => ?_, by simp⟩
      rw [List.singleton_append, acts_plain hs, acts_plain hs]
      rfl

theorem operands_take {p q : Parsed} {s : Switch} {value : Option String} (h : g.take p s value = .ok q) :
    q.operands = p.operands := by
  have hact : g.perform p (.switch s value) = .ok q := h
  rw [perform_eq] at hact
  obtain ⟨gs, -, rfl⟩ := map_eq_ok_iff.mp hact
  rfl

theorem operands_takeCluster {p q : Parsed} {s : Switch} {rest : Text} (h : g.takeCluster p s rest = .ok q) :
    q.operands = p.operands := by
  rw [takeCluster] at h
  split at h
  · cases h
  · exact operands_take h

theorem operands_takeJoined {p q : Parsed} {s : Switch} {value : String} (h : g.takeJoined p s value = .ok q) :
    q.operands = p.operands := by
  rw [takeJoined] at h
  split at h
  · exact operands_take h
  · cases h

theorem parseFrom_switch_cons {p q : Parsed} {s : Switch} (hs : ¬s.takesValue = true) (ht : g.take p s none = .ok q)
    (word : String) (xs : List (String × Word)) : g.parseFrom p ((word, .switch s none) :: xs) = g.parseFrom q xs := by
  cases xs with
  | nil => simp only [parseFrom, if_neg hs, ht]
  | cons x xs =>
    rw [parseFrom, if_neg hs, ht]
    rfl

/-- The command is the first word that is neither a switch nor the value of one; the words before it can be read
alone. -/
theorem exists_of_parseFrom_command {p q : Parsed} {xs : List (String × Word)} {word : String} {ws : List String}
    (h : g.parseFrom p xs = .ok q) (hg : g.operands = .command) (hp : p.operands = [])
    (hq : q.operands = word :: ws) :
    ∃ front w rest, xs = front ++ (word, w) :: rest ∧ rest.map (·.1) = ws ∧
      g.parseFrom p front = .ok { q with operands := [] } := by
  have hbegin : ∀ {p : Parsed} {w : Word} {word' : String} {rest : List (String × Word)}, p.operands = [] →
      q = { p with operands := word' :: rest.map (·.1) } → ∃ front w' rest',
        (word', w) :: rest = front ++ (word, w') :: rest' ∧ rest'.map (·.1) = ws ∧
          g.parseFrom p front = .ok { q with operands := [] } := by
    rintro ⟨given, _, extras, closed⟩ w word' rest rfl rfl
    obtain ⟨rfl, rfl⟩ := List.cons.inj hq
    exact ⟨[], w, rest, rfl, rfl, rfl⟩
  fun_induction g.parseFrom p xs with
  | case1 p =>
    obtain rfl := Except.ok.inj h
    rw [hp] at hq
    cases hq
  | case2 p word' rest hc => exact hbegin hp (Except.ok.inj h).symm
  | case3 p word' rest hc => exact absurd hg hc
  | case4 p word' rest hc => exact hbegin hp (Except.ok.inj h).symm
  | case5 p word' rest hc ih =>
    -- Two hyphens at the end are no command.
    obtain rfl : rest = [] := by simpa [hg] using hc
    refine absurd hq ?_
    rw [← Except.ok.inj h, takeTerminator, hg]
    dsimp only
    split <;> simp [Parsed.addExtra, hp]
  | case6 p word' rest ih =>
    obtain ⟨front, w, rest', rfl, hws, hfront⟩ := ih h hp
    exact ⟨_ :: front, w, rest', rfl, hws, hfront⟩
  | case7 p word' s chars rest ih =>
    obtain ⟨p', hp', h⟩ := bind_eq_ok_iff.mp h
    obtain ⟨front, w, rest', rfl, hws, hfront⟩ := ih p' h ((operands_takeCluster hp').trans hp)
    exact ⟨_ :: front, w, rest', rfl, hws, bind_eq_ok_iff.mpr ⟨p', hp', hfront⟩⟩
  | case8 p word' s value rest ih =>
    obtain ⟨p', hp', h⟩ := bind_eq_ok_iff.mp h
    obtain ⟨front, w, rest', rfl, hws, hfront⟩ := ih p' h ((operands_takeJoined hp').trans hp)
    exact ⟨_ :: front, w, rest', rfl, hws, bind_eq_ok_iff.mpr ⟨p', hp', hfront⟩⟩
  | case9 p word' s value rest hs ih =>
    obtain ⟨p', hp', h⟩ := bind_eq_ok_iff.mp h
    obtain ⟨front, w, rest', rfl, hws, hfront⟩ := ih p' h ((operands_take hp').trans hp)
    refine ⟨_ :: _ :: front, w, rest', rfl, hws, ?_⟩
    rw [parseFrom, if_pos hs, if_pos rfl]
    exact bind_eq_ok_iff.mpr ⟨p', hp', hfront⟩
  | case10 p word' s value w rest hs hw => cases h
  | case11 p word' s value w rest hs ih =>
    obtain ⟨p', hp', h⟩ := bind_eq_ok_iff.mp h
    obtain ⟨front, w', rest', hxs, hws, hfront⟩ := ih p' h ((operands_take hp').trans hp)
    refine ⟨_ :: front, w', rest', by rw [List.cons_append, ← hxs], hws, ?_⟩
    exact (parseFrom_switch_cons hs hp' word' front).trans hfront
  | case12 p word' s hs => cases h
  | case13 p word' s hs =>
    rw [(operands_take h).trans hp] at hq
    cases hq

end Grammar

/-! ## Telling words apart -/

namespace Word

variable {g : Grammar}

theorem classifyAll_append {xs : List String} (h : "--" ∉ xs) (ys : List String) :
    classifyAll g (xs ++ ys) = do
      let a ← classifyAll g xs
      let b ← classifyAll g ys
      return a ++ b := by
  induction xs with
  | nil =>
    rw [List.nil_append, classifyAll]
    cases classifyAll g ys <;> rfl
  | cons x xs ih =>
    rw [List.mem_cons, not_or] at h
    rw [List.cons_append, classifyAll, if_neg (Ne.symm h.1), classifyAll, if_neg (Ne.symm h.1), ih h.2]
    simp

theorem classifyAll_cons {x : String} {w : Word} (hx : x ≠ "--") (h : classify g x = .ok w) (xs : List String) :
    classifyAll g (x :: xs) = (classifyAll g xs).map ((x, w) :: ·) := by
  rw [classifyAll, if_neg hx, h]
  rfl

theorem exists_of_classifyAll_cons {x : String} {xs : List String} {a : List (String × Word)} (hx : x ≠ "--")
    (h : classifyAll g (x :: xs) = .ok a) :
    ∃ w b, a = (x, w) :: b ∧ classifyAll g xs = .ok b ∧ classify g x = .ok w := by
  rw [classifyAll, if_neg hx, bind_eq_ok_iff] at h
  obtain ⟨w, hw, h⟩ := h
  obtain ⟨b, hb, h⟩ := bind_eq_ok_iff.mp h
  exact ⟨w, b, (Except.ok.inj h).symm, hb, hw⟩

theorem map_fst_classifyAll {xs : List String} {a : List (String × Word)} (h : classifyAll g xs = .ok a) :
    a.map (·.1) = xs := by
  induction xs generalizing a with
  | nil =>
    obtain rfl := Except.ok.inj h
    rfl
  | cons x xs ih =>
    by_cases hx : x = "--"
    · rw [classifyAll, if_pos hx] at h
      obtain rfl := Except.ok.inj h
      rw [List.map_cons, List.map_map]
      exact congrArg _ (List.map_id xs)
    · obtain ⟨w, b, rfl, hb, -⟩ := exists_of_classifyAll_cons hx h
      rw [List.map_cons, ih hb]

/-- A word of two hyphens ends the switches. -/
theorem exists_terminator {xs : List String} {a : List (String × Word)} (h : classifyAll g xs = .ok a)
    (hx : "--" ∈ xs) : ∃ x ∈ a, x.2 = .terminator := by
  induction xs generalizing a with
  | nil => cases hx
  | cons x xs ih =>
    by_cases hy : x = "--"
    · rw [classifyAll, if_pos hy] at h
      obtain rfl := Except.ok.inj h
      exact ⟨_, List.mem_cons_self, rfl⟩
    · obtain ⟨w, b, rfl, hb, -⟩ := exists_of_classifyAll_cons hy h
      have hmem : "--" ∈ xs := (List.mem_cons.mp hx).resolve_left (Ne.symm hy)
      obtain ⟨y, hyb, hterm⟩ := ih hb hmem
      exact ⟨y, List.mem_cons_of_mem _ hyb, hterm⟩

/-- The words of a front part can be told apart alone. -/
theorem classifyAll_of_append {xs ys : List String} {a b : List (String × Word)}
    (h : classifyAll g (xs ++ ys) = .ok (a ++ b)) (hlen : a.length = xs.length) (hterm : ∀ x ∈ a, x.2 ≠ .terminator) :
    classifyAll g xs = .ok a := by
  induction xs generalizing a with
  | nil =>
    obtain rfl := List.length_eq_zero_iff.mp hlen
    rfl
  | cons x xs ih =>
    cases a with
    | nil => cases hlen
    | cons y a =>
      by_cases hx : x = "--"
      · rw [List.cons_append, classifyAll, if_pos hx] at h
        obtain ⟨rfl, -⟩ := List.cons.inj (Except.ok.inj h)
        exact absurd rfl (hterm _ List.mem_cons_self)
      · obtain ⟨w, b', heq, hb, hw⟩ := exists_of_classifyAll_cons hx h
        obtain ⟨rfl, rfl⟩ := List.cons.inj heq
        rw [classifyAll_cons hx hw, ih hb (Nat.succ.inj hlen) fun z hz => hterm z (List.mem_cons_of_mem _ hz)]
        rfl

/-- The name of a command is no switch. -/
theorem classify_command {command : String} (h : command ∈ Invocation.commandNames) :
    command ≠ "--" ∧ classify g command = .ok .operand := by
  have h : command = "format" ∨ command = "lsp" := by simpa [Invocation.commandNames] using h
  rcases h with rfl | rfl
  · exact ⟨by decide, rfl⟩
  · exact ⟨by decide, rfl⟩

end Word

/-! ## Reading a line that formats scripts -/

namespace Grammar

variable {g : Grammar}

theorem parse_eq_ok_iff {words : List String} {p : Parsed} : g.parse words = .ok p ↔
    (∃ a, Word.classifyAll g words = .ok a ∧ g.parseFrom .empty a = .ok p) ∧
      ¬(g.operands = .paths ∧ p.operands = []) := by
  simp only [parse, bind_eq_ok_iff, mapError_eq_ok_iff]
  constructor
  · rintro ⟨a, ha, q, hq, h⟩
    split at h
    · cases h
    · next hne =>
      obtain rfl := Except.ok.inj h
      exact ⟨⟨a, ha, hq⟩, hne⟩
  · rintro ⟨⟨a, ha, hp⟩, hne⟩
    exact ⟨a, ha, p, hp, if_neg hne⟩

theorem map_given_parse (hg : g.operands ≠ .paths) (words : List String) : (g.parse words).map (·.given) =
    (Word.classifyAll g words).mapError (.fault g) >>= fun a => (g.acts a).foldlM g.accept [] := by
  unfold parse
  cases Word.classifyAll g words with
  | error f => rfl
  | ok a =>
    have hp := map_given_parseFrom g .empty a
    refine Eq.trans ?_ hp
    show ((g.parseFrom .empty a) >>= _).map _ = _
    cases g.parseFrom .empty a with
    | error i => rfl
    | ok p => simp [hg, bind, Except.bind]

theorem front_cases {front : List String} {p : Parsed} (h : commandLine.parse front = .ok p) (ho : p.operands = [])
    (he : p.extras = []) : "--" ∉ front ∧ ∃ a, Word.classifyAll commandLine front = .ok a ∧
      (commandLine.acts a).foldlM commandLine.perform .empty = .ok p ∧ commandLine.OnlySwitches a := by
  obtain ⟨⟨a, ha, hp⟩, -⟩ := parse_eq_ok_iff.mp h
  rw [parseFrom_eq_foldlM] at hp
  have hswitches := onlySwitches_of_foldlM rfl hp ho he
  refine ⟨fun hmem => ?_, a, ha, hp, hswitches⟩
  obtain ⟨x, hx, hterm⟩ := Word.exists_terminator ha hmem
  exact hswitches.2 x hx hterm

/-- The words before a command are switches, and everything behind it is left to the command. -/
theorem parse_command_iff {front args : List String} {command : String} {p q : Parsed}
    (hc : command ∈ Invocation.commandNames) (h : commandLine.parse front = .ok p) (ho : p.operands = [])
    (he : p.extras = []) : commandLine.parse (front ++ command :: args) = .ok q ↔
      (∃ b, Word.classifyAll commandLine args = .ok b) ∧ q = { p with operands := command :: args } := by
  obtain ⟨hterm, a, ha, hp, hswitches⟩ := front_cases h ho he
  obtain ⟨hne, hclass⟩ := Word.classify_command (g := commandLine) hc
  have hread : ∀ b, Word.classifyAll commandLine args = .ok b →
      commandLine.parseFrom .empty (a ++ (command, .operand) :: b) = .ok { p with operands := command :: args } := by
    intro b hb
    have hcommand : commandLine.acts ((command, .operand) :: b) = [.command (command :: args)] := by
      rw [acts, if_pos (show commandLine.operands = .command from rfl), Word.map_fst_classifyAll hb]
    rw [parseFrom_eq_foldlM, hswitches.1, hcommand, List.foldlM_append, hp]
    rfl
  have hwords : Word.classifyAll commandLine (front ++ command :: args) =
      (Word.classifyAll commandLine args).map fun b => a ++ (command, .operand) :: b := by
    rw [Word.classifyAll_append hterm, ha, Word.classifyAll_cons hne hclass]
    cases Word.classifyAll commandLine args <;> rfl
  rw [parse_eq_ok_iff, hwords]
  constructor
  · rintro ⟨⟨c, hc, hq⟩, -⟩
    obtain ⟨b, hb, rfl⟩ := map_eq_ok_iff.mp hc
    rw [hread b hb] at hq
    exact ⟨⟨b, hb⟩, (Except.ok.inj hq).symm⟩
  · rintro ⟨⟨b, hb⟩, rfl⟩
    exact ⟨⟨_, map_eq_ok_iff.mpr ⟨b, hb, rfl⟩, hread b hb⟩, fun hpaths => by cases hpaths.2⟩

end Grammar

namespace Invocation

/-- What a command line holds besides its command. -/
def ofGiven (gs : List Given) (request : Option Request) : Invocation :=
  ⟨Given.text? .config gs, Given.has .verbose gs, Given.text? .logLevel gs, request⟩

theorem parse_eq_ok_iff {words : List String} {i : Invocation} : parse words = .ok i ↔
    ∃ p request, Grammar.commandLine.parse words = .ok p ∧ parseRequest p = .ok (request, []) ∧
      i = ofGiven p.given request := by
  simp only [parse, bind_eq_ok_iff]
  constructor
  · rintro ⟨p, hp, ⟨request, extras⟩, hr, h⟩
    split at h
    · next he =>
      subst he
      exact ⟨p, request, hp, hr, (Except.ok.inj h).symm⟩
    · cases h
  · rintro ⟨p, request, hp, hr, rfl⟩
    exact ⟨p, hp, _, hr, if_pos rfl⟩

theorem parseRequest_eq_none_iff {p : Parsed} {extras : List String} :
    parseRequest p = .ok (none, extras) ↔ p.operands = [] ∧ extras = p.extras := by
  unfold parseRequest
  cases p.operands with
  | nil => simp [eq_comm]
  | cons command words => simp [map_eq_ok_iff]

/-- A command line that asks for something has switches before its command, which can be read alone. -/
theorem exists_of_request {words : List String} {i : Invocation} {r : Request} (h : parse words = .ok i)
    (hr : i.request = some r) : ∃ front command args p, words = front ++ command :: args ∧
      Grammar.commandLine.parse front = .ok p ∧ p.operands = [] ∧ p.extras = [] ∧
      parseCommand command args = .ok (r, []) := by
  obtain ⟨p, request, hp, hrequest, rfl⟩ := parse_eq_ok_iff.mp h
  obtain rfl : request = some r := hr
  obtain ⟨⟨a, ha, hread⟩, -⟩ := Grammar.parse_eq_ok_iff.mp hp
  rw [parseRequest] at hrequest
  split at hrequest
  · cases hrequest
  · next command args hop =>
    obtain ⟨⟨request, extras⟩, hc, heq⟩ := map_eq_ok_iff.mp hrequest
    obtain ⟨hsome, hextras⟩ := Prod.mk.inj heq
    obtain rfl : request = r := Option.some.inj hsome
    obtain ⟨hnone, rfl⟩ := List.append_eq_nil_iff.mp hextras
    obtain ⟨front, w, rest, rfl, rfl, hfront⟩ := Grammar.exists_of_parseFrom_command hread rfl rfl hop
    have hwords := Word.map_fst_classifyAll ha
    rw [List.map_append, List.map_cons] at hwords
    have hswitches : Grammar.commandLine.OnlySwitches front := by
      rw [Grammar.parseFrom_eq_foldlM] at hfront
      exact Grammar.onlySwitches_of_foldlM rfl hfront rfl hnone
    have hclass : Word.classifyAll .commandLine (front.map (·.1)) = .ok front :=
      Word.classifyAll_of_append (hwords ▸ ha) (List.length_map _).symm hswitches.2
    have hparse : Grammar.commandLine.parse (front.map (·.1)) = .ok { p with operands := [] } :=
      Grammar.parse_eq_ok_iff.mpr ⟨⟨front, hclass, hfront⟩, by simp [Grammar.commandLine]⟩
    exact ⟨front.map (·.1), command, rest.map (·.1), { p with operands := [] }, hwords.symm, hparse, rfl, hnone, hc⟩

/-- The switches before the command, and the command. -/
theorem parse_format_iff {front args : List String} {i₀ i : Invocation} (h : parse front = .ok i₀)
    (hnone : i₀.request = none) : parse (front ++ "format" :: args) = .ok i ↔
      ∃ b q, Word.classifyAll .commandLine args = .ok b ∧ Grammar.format.parse args = .ok q ∧ q.extras = [] ∧
        i = { i₀ with request := some (formatRequest q) } := by
  obtain ⟨p, request, hp, hr, rfl⟩ := parse_eq_ok_iff.mp h
  obtain rfl : request = none := hnone
  obtain ⟨ho, he⟩ := parseRequest_eq_none_iff.mp hr
  have hrequest : ∀ {request}, parseRequest { p with operands := "format" :: args } = .ok (request, []) ↔
      ∃ q, Grammar.format.parse args = .ok q ∧ q.extras = [] ∧ request = some (formatRequest q) := by
    intro request
    simp only [parseRequest, parseCommand, map_eq_ok_iff, Prod.mk.injEq, ← he, List.nil_append]
    constructor
    · rintro ⟨_, ⟨q, hq, rfl⟩, rfl, hextras⟩
      exact ⟨q, hq, hextras, rfl⟩
    · rintro ⟨q, hq, hextras, rfl⟩
      exact ⟨_, ⟨q, hq, rfl⟩, rfl, hextras⟩
  rw [parse_eq_ok_iff]
  constructor
  · rintro ⟨p', request, hp', hr', rfl⟩
    obtain ⟨⟨b, hb⟩, rfl⟩ := (Grammar.parse_command_iff (by decide) hp ho he.symm).mp hp'
    obtain ⟨q, hq, hextras, rfl⟩ := hrequest.mp hr'
    exact ⟨b, q, hb, hq, hextras, rfl⟩
  · rintro ⟨b, q, hb, hq, hextras, rfl⟩
    have hp' : Grammar.commandLine.parse (front ++ "format" :: args) = .ok { p with operands := "format" :: args } :=
      (Grammar.parse_command_iff (by decide) hp ho he.symm).mpr ⟨⟨b, hb⟩, rfl⟩
    exact ⟨_, _, hp', hrequest.mpr ⟨q, hq, hextras, rfl⟩, rfl⟩

end Invocation

/-- A command line that formats scripts: `front` are the switches before the command, `args` everything behind it, and
`r` is what it asks for. -/
structure FormatLine (front args : List String) (i : Invocation) (r : FormatRequest) : Prop where
  switches : ∃ i₀, Invocation.parse front = .ok i₀ ∧ i₀.request = none
  parse : Invocation.parse (front ++ "format" :: args) = .ok i
  request : i.request = some (.format r)

namespace FormatLine

variable {front args : List String} {i : Invocation} {r : FormatRequest}

/-- Every command line that asks for scripts to be formatted is one. -/
theorem exists_of_parse {words : List String} (h : Invocation.parse words = .ok i)
    (hr : i.request = some (.format r)) :
    ∃ front args, words = front ++ "format" :: args ∧ FormatLine front args i r := by
  obtain ⟨front, command, args, p, rfl, hp, ho, he, hc⟩ := Invocation.exists_of_request h hr
  obtain rfl : command = "format" := by
    rw [Invocation.parseCommand.eq_def] at hc
    split at hc
    · rfl
    · obtain ⟨q, -, hq⟩ := map_eq_ok_iff.mp hc
      cases hq
    · cases hc
  refine ⟨front, args, rfl, ?_, h, hr⟩
  exact ⟨_, Invocation.parse_eq_ok_iff.mpr
    ⟨p, none, hp, Invocation.parseRequest_eq_none_iff.mpr ⟨ho, he.symm⟩, rfl⟩, rfl⟩

/-- What is read behind the command when the switch is there too. -/
theorem parse_check {q : Parsed} (hq : Grammar.format.parse args = .ok q) (hdiff : Given.has .diff q.given = false) :
    Grammar.format.parse ("--check" :: args) = .ok { q with given := ⟨.check, none⟩ :: q.given } := by
  obtain ⟨⟨a, ha, hread⟩, hne⟩ := Grammar.parse_eq_ok_iff.mp hq
  have hfront : Word.classifyAll .format ("--check" :: args) = .ok (("--check", .switch .check none) :: a) := by
    rw [Word.classifyAll_cons (by decide) rfl, ha]
    rfl
  refine Grammar.parse_eq_ok_iff.mpr ⟨⟨_, hfront, ?_⟩, hne⟩
  rw [Grammar.parseFrom_eq_foldlM, Grammar.foldlM_perform] at hread ⊢
  obtain ⟨gs, hgs, rfl⟩ := map_eq_ok_iff.mp hread
  obtain ⟨_, rfl, hpre⟩ := Grammar.foldlM_accept_append hgs
  -- Only the switch for differences is excluded by the one for checks.
  have hrival : ∀ x ∈ gs, ∀ rival, x.switch.rival? = some rival → Given.has rival [⟨.check, none⟩] = false := by
    intro x hx rival hr
    obtain ⟨s, value⟩ := x
    cases s with
    | check =>
      obtain rfl := Option.some.inj hr
      rfl
    | diff =>
      have hhas : Given.has .diff gs = true := List.any_eq_true.mpr ⟨_, hx, rfl⟩
      exact absurd (hhas.symm.trans hdiff) (by decide)
    | _ => cases hr
  have hgiven : (Grammar.format.acts (("--check", .switch .check none) :: a)).foldlM Grammar.format.accept [] =
      .ok (⟨.check, none⟩ :: gs) := by
    rw [Grammar.acts_plain rfl, List.foldlM_cons]
    exact hpre [⟨.check, none⟩] hrival
  refine map_eq_ok_iff.mpr ⟨_, hgiven, ?_⟩
  rw [Grammar.acts_plain rfl]
  rfl

theorem last?_check_cons {s : Switch} (h : s ≠ .check) (gs : List Given) :
    Given.last? s (⟨.check, none⟩ :: gs) = Given.last? s gs := by
  simp [Given.last?, List.find?_append, Ne.symm h]

/-- With one switch more, scripts are checked instead of overwritten. -/
theorem check (h : FormatLine front args i r) (hmode : r.mode = .write) :
    FormatLine front ("--check" :: args) { i with request := some (.format { r with mode := .check }) }
      { r with mode := .check } := by
  obtain ⟨i₀, hfront, hnone⟩ := h.switches
  obtain ⟨b, q, hb, hq, hextras, rfl⟩ := (Invocation.parse_format_iff hfront hnone).mp h.parse
  obtain rfl := Request.format.inj (Option.some.inj h.request)
  have hunset : Given.has .check q.given = false ∧ Given.has .diff q.given = false := by
    dsimp only at hmode
    split at hmode
    · cases hmode
    · split at hmode
      · cases hmode
      · exact ⟨by simpa using ‹¬Given.has .check q.given = true›, by simpa using ‹¬Given.has .diff q.given = true›⟩
  have hparsed := parse_check hq hunset.2
  have hrequest : Invocation.formatRequest { q with given := ⟨.check, none⟩ :: q.given } = .format
      { paths := q.operands, mode := .check, keywords := Given.path? .keywords q.given,
        encoding := ((Given.last? .encoding q.given).map (·.value)).getD (some "utf-8") } := by
    simp only [Invocation.formatRequest, Given.path?, Given.text?, last?_check_cons (s := .keywords) (by decide),
      last?_check_cons (s := .encoding) (by decide)]
    rfl
  have hwords : Word.classifyAll .commandLine ("--check" :: args) = .ok (("--check", .unknown) :: b) := by
    rw [Word.classifyAll_cons (by decide) rfl, hb]
    rfl
  refine ⟨⟨i₀, hfront, hnone⟩, ?_, rfl⟩
  refine (Invocation.parse_format_iff hfront hnone).mpr ⟨_, _, hwords, hparsed, hextras, ?_⟩
  rw [hrequest]

/-- The workspace is the same with the switch. -/
theorem given_check (h : FormatLine front args i r) :
    (Grammar.workspace.parse (front ++ "format" :: "--check" :: args)).map (·.given) =
      (Grammar.workspace.parse (front ++ "format" :: args)).map (·.given) := by
  obtain ⟨i₀, hfront, hnone⟩ := h.switches
  obtain ⟨p, request, hp, hr, rfl⟩ := Invocation.parse_eq_ok_iff.mp hfront
  obtain rfl : request = none := hnone
  obtain ⟨ho, he⟩ := Invocation.parseRequest_eq_none_iff.mp hr
  obtain ⟨hterm, -⟩ := Grammar.front_cases hp ho he.symm
  have hg : Grammar.workspace.operands ≠ .paths := by decide
  have hg' : Grammar.workspace.operands ≠ .command := by decide
  rw [Grammar.map_given_parse hg, Grammar.map_given_parse hg, Word.classifyAll_append hterm,
    Word.classifyAll_append hterm, Word.classifyAll_cons (x := "format") (by decide) rfl,
    Word.classifyAll_cons (x := "format") (by decide) rfl, Word.classifyAll_cons (x := "--check") (by decide) rfl]
  cases Word.classifyAll .workspace front with
  | error f => rfl
  | ok a =>
    cases Word.classifyAll .workspace args with
    | error f => rfl
    | ok b =>
      show (Grammar.workspace.acts (a ++ ("format", .operand) :: ("--check", .unknown) :: b)).foldlM _ [] =
        (Grammar.workspace.acts (a ++ ("format", .operand) :: b)).foldlM _ []
      rw [Grammar.acts_append_operand hg', Grammar.acts_append_operand hg' a "format" b, List.foldlM_append,
        List.foldlM_append]
      rfl

end FormatLine
end ScriptCase
