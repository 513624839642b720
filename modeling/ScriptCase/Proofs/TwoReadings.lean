import ScriptCase.Command.Run
import ScriptCase.Proofs.Abbreviations

/-!
# Two readings of a command line

The program reads its command line twice. The first reading looks for the workspace and its settings file and passes
over everything else; the second one reads the whole line. Both should find the same switches, those before the command.

They do before the command (`Grammar.foldlM_accept_front`), since the first reading takes or passes over each of them
as a whole (`Grammar.foldlM_accept_switch`). Behind it, the first reading finds the stray words and nothing else
(`CommandAt.switch_iff_stray`), so that without stray words the run is in the place that the switches before the command
ask for (`World.runBy_reads_front`).
-/

namespace ScriptCase

/-! ## What acts give -/

namespace Grammar

/-- The switch that an act gives. -/
def Act.given? : Act → Option Given
  | .switch s value => some ⟨s, value.filter (· != "--")⟩
  | _ => none

variable {g : Grammar} {gs gs' : List Given} {as : List Act} {p p' : Parsed}

theorem accept_eq {a : Act} (h : g.accept gs a = .ok gs') : gs' = gs ++ a.given?.toList ∧ ∀ f, a ≠ .fault f := by
  cases a with
  | switch s value =>
    refine ⟨?_, by simp⟩
    obtain ⟨q, hq, rfl⟩ := map_eq_ok_iff.mp h
    simp only [take, bind_eq_ok_iff] at hq
    obtain ⟨-, -, -, -, hq⟩ := hq
    cases s with
    | help | version => cases hq
    | _ =>
      obtain rfl := Except.ok.inj hq
      rfl
  | fault f => cases h
  | operand | terminator | unknown | command =>
    obtain rfl := Except.ok.inj h
    exact ⟨(List.append_nil _).symm, by simp⟩

/-- The switches of a reading that comes to its end are those of its acts. -/
theorem foldlM_accept_eq (h : as.foldlM g.accept gs = .ok gs') :
    gs' = gs ++ as.filterMap Act.given? ∧ ∀ f, .fault f ∉ as := by
  induction as generalizing gs with
  | nil =>
    obtain rfl := Except.ok.inj h
    exact ⟨(List.append_nil _).symm, fun f => List.not_mem_nil⟩
  | cons a as ih =>
    rw [List.foldlM_cons, bind_eq_ok_iff] at h
    obtain ⟨gs₁, ha, h⟩ := h
    obtain ⟨rfl, hfault⟩ := accept_eq ha
    obtain ⟨rfl, hfaults⟩ := ih h
    refine ⟨?_, fun f hf => ?_⟩
    · rw [List.append_assoc]
      cases hg : a.given? with
      | none => rw [List.filterMap_cons_none hg]; rfl
      | some x => rw [List.filterMap_cons_some hg]; rfl
    · rcases List.mem_cons.mp hf with rfl | hf
      · exact hfault f rfl
      · exact hfaults f hf

theorem accept_workspace {s : Switch} (hs : s.isPlace = true) (gs : List Given) (value : Option String) :
    workspace.accept gs (.switch s value) = .ok (gs ++ [⟨s, value.filter (· != "--")⟩]) := by
  cases s with
  | config | workspace => rfl
  | _ => cases hs

/-- Other words are passed over when the workspace is looked for. -/
theorem foldlM_accept_pass {w : Word} (hw : w = .operand ∨ w = .unknown) (word : String) (gs : List Given)
    (xs : List (String × Word)) : (workspace.acts ((word, w) :: xs)).foldlM workspace.accept gs =
      (workspace.acts xs).foldlM workspace.accept gs := by
  rcases hw with rfl | rfl
  · rw [acts, if_neg (by decide), List.foldlM_cons]
    rfl
  · rw [acts, List.foldlM_cons]
    rfl

theorem extras_of_move {a : Act} (h : (g.move p a).extras = []) : p.extras = [] ∧ (∀ word, a ≠ .unknown word) := by
  cases a with
  | operand word =>
    refine ⟨?_, by simp⟩
    simp only [move, takeOperand] at h
    split at h
    · simp [Parsed.addExtra] at h
    · split at h
      · simp [Parsed.addExtra] at h
      · exact h
  | terminator more =>
    refine ⟨?_, by simp⟩
    simp only [move, takeTerminator] at h
    split at h
    · simp [Parsed.addExtra] at h
    · split at h
      · simp [Parsed.addExtra] at h
      · exact h
  | unknown word => simp [move, Parsed.addExtra] at h
  | switch | fault | command => exact ⟨h, by simp⟩

/-- A reading that leaves no extras has met no unknown switch. -/
theorem extras_of_foldlM (h : as.foldlM g.perform p = .ok p') (he : p'.extras = []) :
    p.extras = [] ∧ ∀ word, .unknown word ∉ as := by
  rw [foldlM_perform] at h
  obtain ⟨gs, -, rfl⟩ := map_eq_ok_iff.mp h
  clear h
  induction as generalizing p with
  | nil => exact ⟨he, fun word => List.not_mem_nil⟩
  | cons a as ih =>
    obtain ⟨hmove, hrest⟩ := ih he
    obtain ⟨hp, ha⟩ := extras_of_move hmove
    refine ⟨hp, fun word hw => ?_⟩
    rcases List.mem_cons.mp hw with rfl | hw
    · exact ha word rfl
    · exact hrest word hw

/-- The switches for the workspace among those that acts give. -/
def places (as : List Act) : List Given := (as.filterMap Act.given?).filter fun x => x.switch.isPlace

theorem places_switch (s : Switch) (value : Option String) (as : List Act) : places (.switch s value :: as) =
    (if s.isPlace then [⟨s, value.filter (· != "--")⟩] else []) ++ places as := by
  cases hs : s.isPlace <;> simp [places, Act.given?, hs]

/-- A switch is taken when the workspace is looked for, or passed over together with the words of its value. Those words
are `behind`, and there are none if the value is joined to the switch. -/
theorem foldlM_accept_switch {s : Switch} {joined value : Option String} {w : Word}
    (h : Word.Narrows (.switch s joined) w) (word : String) (behind : List String) {xs : List (String × Word)}
    (hacts : workspace.acts ((word, .switch s joined) :: (behind.map (·, .operand) ++ xs)) =
      .switch s value :: workspace.acts xs) (gs : List Given) :
    (workspace.acts ((word, w) :: (behind.map (·, .operand) ++ xs))).foldlM workspace.accept gs =
      (workspace.acts xs).foldlM workspace.accept
        (gs ++ if s.isPlace then [⟨s, value.filter (· != "--")⟩] else []) := by
  rw [Word.Narrows] at h
  split at h
  · next hp =>
    rw [h, hacts, List.foldlM_cons, accept_workspace hp, if_pos hp]
    rfl
  · next hp =>
    rw [foldlM_accept_pass h, if_neg hp, List.append_nil]
    clear hacts
    induction behind with
    | nil => rfl
    | cons word behind ih => exact (foldlM_accept_pass (Or.inl rfl) ..).trans ih

/-- The reading that looks for the workspace takes the same switches from the words before a command. -/
theorem foldlM_accept_front {xs ys : List (String × Word)}
    (h : (commandLine.acts xs).foldlM commandLine.perform p = .ok p') (ho : p'.operands = []) (he : p'.extras = [])
    (hterm : ∀ x ∈ xs, x.2 ≠ .terminator) (hall : List.Forall₂ (fun x y => x.1 = y.1 ∧ Word.Narrows x.2 y.2) xs ys)
    (command : String) (gs : List Given) :
    (workspace.acts (ys ++ [(command, .operand)])).foldlM workspace.accept gs =
      .ok (gs ++ places (commandLine.acts xs)) := by
  induction xs using acts.induct commandLine generalizing p ys gs with
  | case1 =>
    obtain rfl := List.forall₂_nil_left_iff.mp hall
    rw [List.nil_append, foldlM_accept_pass (Or.inl rfl)]
    exact congrArg Except.ok (List.append_nil gs).symm
  | case2 word rest hc =>
    rw [acts, if_pos hc] at h
    obtain rfl := Except.ok.inj h
    cases ho
  | case3 word rest hc => exact absurd rfl hc
  | case4 word rest hc => exact absurd rfl (hterm _ List.mem_cons_self)
  | case5 word rest hc => exact absurd rfl (hterm _ List.mem_cons_self)
  | case6 word rest ih => exact absurd List.mem_cons_self ((extras_of_foldlM h he).2 word)
  | case7 word s chars rest ih =>
    obtain ⟨y, ys, ⟨-, hs⟩, -, rfl⟩ := List.forall₂_cons_left_iff.mp hall
    obtain rfl : s = .help := hs
    obtain ⟨q, hq, -⟩ := exists_of_foldlM_cons h
    rw [perform_clusterAct, takeCluster] at hq
    split at hq <;> cases hq
  | case8 word s value rest ih =>
    obtain ⟨⟨_, w⟩, ys, ⟨rfl, hs⟩, hys, rfl⟩ := List.forall₂_cons_left_iff.mp hall
    obtain ⟨q, hq, hrest⟩ := exists_of_foldlM_cons h
    have hv : s.takesValue = true := by
      by_contra hv
      rw [joinedAct, if_neg hv] at hq
      cases hq
    rw [acts_joined hv, places_switch, ← List.append_assoc,
      ← ih hrest (fun x hx => hterm x (List.mem_cons_of_mem _ hx)) hys]
    exact foldlM_accept_switch hs word [] (acts_joined hv ..) gs
  | case9 word s value w rest hv ih =>
    obtain ⟨⟨_, w₁⟩, _, ⟨rfl, hs⟩, htail, rfl⟩ := List.forall₂_cons_left_iff.mp hall
    obtain ⟨⟨_, w₂⟩, ys, ⟨rfl, hs₂⟩, hys, rfl⟩ := List.forall₂_cons_left_iff.mp htail
    rw [acts, if_pos hv] at h
    obtain ⟨q, hq, hrest⟩ := exists_of_foldlM_cons h
    obtain rfl : w = .operand := by
      by_contra hw
      rw [valuedAct, if_neg hw] at hq
      cases hq
    obtain rfl : w₂ = .operand := hs₂
    rw [acts_valued hv, places_switch, ← List.append_assoc,
      ← ih hrest (fun x hx => hterm x (List.mem_cons_of_mem _ (List.mem_cons_of_mem _ hx))) hys]
    exact foldlM_accept_switch hs word [value] (acts_valued hv ..) gs
  | case10 word s value w rest hv ih =>
    obtain ⟨⟨_, w₁⟩, ys, ⟨rfl, hs⟩, hys, rfl⟩ := List.forall₂_cons_left_iff.mp hall
    have hv : s.takesValue = false := by simpa using hv
    rw [acts_plain hv] at h ⊢
    obtain ⟨q, -, hrest⟩ := exists_of_foldlM_cons h
    rw [places_switch, ← List.append_assoc, ← ih hrest (fun x hx => hterm x (List.mem_cons_of_mem _ hx)) hys]
    exact foldlM_accept_switch hs word [] (acts_plain hv ..) gs
  | case11 word s =>
    obtain ⟨⟨_, w₁⟩, ys, ⟨rfl, hs⟩, hys, rfl⟩ := List.forall₂_cons_left_iff.mp hall
    obtain rfl := List.forall₂_nil_left_iff.mp hys
    cases hv : s.takesValue with
    | true =>
      rw [acts, if_pos hv] at h
      cases h
    | false =>
      rw [acts_plain hv, places_switch, ← List.append_assoc]
      refine (foldlM_accept_switch hs word [] (acts_plain hv ..) gs).trans ?_
      rw [foldlM_accept_pass (Or.inl rfl)]
      exact congrArg Except.ok (List.append_nil _).symm

/-! ## Words behind a command -/

/-- The act belongs to a word of this kind, or it is a fault. -/
def Act.IsAt : Act → Word → Prop
  | .fault _, _ => True
  | a, .unknown => ∃ word, a = .unknown word
  | a, .switch s (some value) => a = joinedAct s value
  | a, .switch s none => ∃ value, a = .switch s value
  | _, _ => True

theorem isAt_valuedAct (s : Switch) (value : String) (w : Word) :
    (valuedAct s value w).IsAt (.switch s none) ∧ (valuedAct s value w).IsAt w := by
  rw [valuedAct]
  split
  · next hw =>
    rw [hw]
    exact ⟨⟨_, rfl⟩, trivial⟩
  · exact ⟨trivial, trivial⟩

theorem isAt_joinedAct (s : Switch) (value : String) : (joinedAct s value).IsAt (.switch s (some value)) := by
  unfold joinedAct
  split
  · next hv => exact (if_pos hv).symm
  · trivial

/-- A switch leads to a switch that is given, or to a fault. -/
theorem Act.IsAt.cases_switch {a : Act} {s : Switch} {value : Option String} (h : a.IsAt (.switch s value)) :
    (∃ f, a = .fault f) ∨ ∃ s value, a = .switch s value := by
  cases a with
  | fault f => exact Or.inl ⟨f, rfl⟩
  | switch s value => exact Or.inr ⟨s, value, rfl⟩
  | operand | terminator | unknown | command =>
    cases value with
    | none =>
      obtain ⟨value, hv⟩ := h
      cases hv
    | some value =>
      simp only [Act.IsAt, joinedAct] at h
      split at h <;> cases h

theorem exists_act_cons {a : Act} {x y : String × Word} {xs : List (String × Word)} (hx : x ∈ y :: xs) (ha : a.IsAt y.2)
    (ih : x ∈ xs → ∃ b ∈ as, b.IsAt x.2) : ∃ b ∈ a :: as, b.IsAt x.2 := by
  rcases List.mem_cons.mp hx with rfl | hx
  · exact ⟨a, List.mem_cons_self, ha⟩
  · obtain ⟨b, hb, hat⟩ := ih hx
    exact ⟨b, List.mem_cons_of_mem _ hb, hat⟩

/-- No word goes without an act. -/
theorem exists_act (hg : g.operands ≠ .command) {xs : List (String × Word)} {x : String × Word} (hx : x ∈ xs) :
    ∃ a ∈ g.acts xs, a.IsAt x.2 := by
  induction xs using acts.induct g with
  | case1 => cases hx
  | case2 word rest hc => exact absurd hc hg
  | case3 word rest hc ih =>
    rw [acts, if_neg hc]
    exact exists_act_cons hx trivial ih
  | case4 word rest hc => exact absurd hc.1 hg
  | case5 word rest hc ih =>
    rw [acts, if_neg hc]
    exact exists_act_cons hx trivial ih
  | case6 word rest ih => exact exists_act_cons hx ⟨word, rfl⟩ ih
  | case7 word s chars rest ih =>
    refine exists_act_cons hx ?_ ih
    rw [clusterAct]
    split <;> trivial
  | case8 word s value rest ih => exact exists_act_cons hx (isAt_joinedAct s value) ih
  | case9 word s value w rest hv ih =>
    rw [acts, if_pos hv]
    obtain ⟨hswitch, hvalue⟩ := isAt_valuedAct s value w
    rcases List.mem_cons.mp hx with rfl | hx
    · exact ⟨_, List.mem_cons_self, hswitch⟩
    · exact exists_act_cons hx hvalue ih
  | case10 word s value w rest hv ih =>
    rw [acts, if_neg hv]
    exact exists_act_cons hx ⟨none, rfl⟩ ih
  | case11 word s =>
    obtain rfl := List.mem_singleton.mp hx
    rw [acts]
    refine ⟨_, List.mem_singleton_self _, ?_⟩
    split
    · trivial
    · exact ⟨none, rfl⟩

/-- Words give nothing to the reading that looks for the workspace if there is no switch among them. -/
theorem foldlM_accept_iff {xs : List (String × Word)} (hc : ∀ x ∈ xs, ∀ s rest, x.2 ≠ .cluster s rest)
    (gs : List Given) :
    (workspace.acts xs).foldlM workspace.accept gs = .ok gs ↔ ∀ x ∈ xs, ∀ s value, x.2 ≠ .switch s value := by
  constructor
  · intro h x hx s value he
    obtain ⟨hgs, hfault⟩ := foldlM_accept_eq h
    have hnone : (workspace.acts xs).filterMap Act.given? = [] := List.self_eq_append_right.mp hgs
    have hswitch : ∀ s value, .switch s value ∉ workspace.acts xs := fun s value hmem => by
      have := List.filterMap_eq_nil_iff.mp hnone _ hmem
      cases this
    obtain ⟨a, ha, hat⟩ := exists_act (g := workspace) (by decide) hx
    rw [he] at hat
    rcases hat.cases_switch with ⟨f, rfl⟩ | ⟨s, value, rfl⟩
    · exact hfault f ha
    · exact hswitch s value ha
  · intro h
    induction xs with
    | nil => rfl
    | cons x xs ih =>
      have hrest := ih (fun y hy => hc y (List.mem_cons_of_mem _ hy)) fun y hy => h y (List.mem_cons_of_mem _ hy)
      obtain ⟨word, w⟩ := x
      cases w with
      | operand => rwa [foldlM_accept_pass (Or.inl rfl)]
      | unknown => rwa [foldlM_accept_pass (Or.inr rfl)]
      | terminator =>
        rw [acts, if_neg (fun h => absurd h.1 (by decide)), List.foldlM_cons]
        exact hrest
      | switch s value => exact absurd rfl (h _ List.mem_cons_self s value)
      | cluster s rest => exact absurd rfl (hc _ List.mem_cons_self s rest)

/-! ## Words that a command takes -/

section Accepted

variable {args : List String} {word : String} {q : Parsed}

/-- A command line with an unknown switch, or with a value for a switch that takes none, is not accepted. -/
theorem not_refused (hg : g.operands ≠ .command) (hq : g.parse args = .ok q) (he : q.extras = [])
    (hword : word ∈ args.takeWhile (· != "--")) : Word.classify g word ≠ .ok .unknown ∧
      ∀ s v, s.takesValue = false → Word.classify g word ≠ .ok (.switch s (some v)) := by
  obtain ⟨⟨xs, hxs, hread⟩, -⟩ := parse_eq_ok_iff.mp hq
  rw [parseFrom_eq_foldlM] at hread
  have hunknown := (extras_of_foldlM hread he).2
  have hfault : ∀ f, .fault f ∉ g.acts xs := by
    rw [foldlM_perform] at hread
    obtain ⟨gs, hgs, -⟩ := map_eq_ok_iff.mp hread
    exact (foldlM_accept_eq hgs).2
  refine ⟨fun hw => ?_, fun s v hs hw => ?_⟩
  · have hmem := (Word.mem_classifyAll_iff hxs (by simp) (by simp)).mpr ⟨hword, hw⟩
    obtain ⟨a, ha, hat⟩ := exists_act hg hmem
    cases a with
    | fault f => exact hfault f ha
    | unknown word => exact hunknown word ha
    | operand | terminator | switch | command =>
      obtain ⟨_, hcase⟩ := hat
      cases hcase
  · have hmem := (Word.mem_classifyAll_iff hxs (by simp) (by simp)).mpr ⟨hword, hw⟩
    obtain ⟨a, ha, hat⟩ := exists_act hg hmem
    have hjoined : joinedAct s v = .fault (.needlessValue s v) := by
      rw [joinedAct, if_neg (by simp [hs])]
    cases a with
    | fault f => exact hfault f ha
    | operand | terminator | switch | unknown | command =>
      have hat := hat.trans hjoined
      cases hat

/-- The command that starts the language server takes no words. -/
theorem eq_nil_of_serve (hq : serve.parse args = .ok q) (he : q.extras = []) : args = [] := by
  cases args with
  | nil => rfl
  | cons word args =>
    exfalso
    obtain ⟨⟨xs, hxs, hread⟩, -⟩ := parse_eq_ok_iff.mp hq
    rw [parseFrom_eq_foldlM] at hread
    have hfirst : ∀ a as, serve.acts xs = a :: as → ∃ p, serve.perform .empty a = .ok p ∧ p.extras = [] := by
      intro a as hacts
      rw [hacts] at hread
      obtain ⟨p, hp, hrest⟩ := exists_of_foldlM_cons hread
      exact ⟨p, hp, (extras_of_foldlM hrest he).1⟩
    have hhelp : ∀ x ∈ serve.names, x.2 = .help := by decide
    by_cases hx : word = "--"
    · rw [Word.classifyAll, if_pos hx] at hxs
      obtain rfl := Except.ok.inj hxs
      obtain ⟨_, ⟨⟩, hp⟩ := hfirst (.terminator _) _ (by rw [acts, if_neg fun h => absurd h.1 (by decide)])
      cases hp
    obtain ⟨w, rest, rfl, -, hw⟩ := Word.exists_of_classifyAll_cons hx hxs
    rcases Word.classify_cases hw with (rfl | rfl) | ⟨x, hmem, ⟨_ | value, rfl⟩ | ⟨chars, rfl⟩⟩
    · obtain ⟨_, ⟨⟩, hp⟩ := hfirst (.operand word) _ (by rw [acts, if_neg (by decide)])
      cases hp
    · obtain ⟨_, ⟨⟩, hp⟩ := hfirst (.unknown word) _ rfl
      cases hp
    · rw [hhelp x hmem] at hfirst
      obtain ⟨_, hp, -⟩ := hfirst _ _ (acts_plain rfl word rest)
      cases hp
    · rw [hhelp x hmem] at hfirst
      obtain ⟨_, hp, -⟩ := hfirst (.fault _) _ rfl
      cases hp
    · rw [hhelp x hmem] at hfirst
      obtain ⟨_, hp, -⟩ := hfirst _ _ rfl
      rw [perform_clusterAct, takeCluster] at hp
      split at hp <;> cases hp

end Accepted

end Grammar

/-! ## Whole command lines -/

/-- A command line with its command: `front` are the switches before it, which give `gs`, and `args` is everything
behind it. -/
structure CommandAt (words front : List String) (command : String) (args : List String) (gs : List Given) : Prop where
  words : words = front ++ command :: args
  name : command ∈ Invocation.commandNames
  front : ∃ p, Grammar.commandLine.parse front = .ok p ∧ p.given = gs ∧ p.operands = [] ∧ p.extras = []

namespace CommandAt

variable {words front args : List String} {command : String} {gs : List Given} {i : Invocation} {r : Request}

theorem exists_of_request (h : Invocation.parse words = .ok i) (hr : i.request = some r) :
    ∃ front command args gs, CommandAt words front command args gs := by
  obtain ⟨front, command, args, p, hwords, hp, ho, he, hc⟩ := Invocation.exists_of_request h hr
  refine ⟨front, command, args, p.given, hwords, ?_, p, hp, rfl, ho, he⟩
  rw [Invocation.parseCommand.eq_def] at hc
  split at hc
  · decide
  · decide
  · cases hc

/-- Everything behind the command is left to it. -/
theorem parseCommand (hc : CommandAt words front command args gs) (h : Invocation.parse words = .ok i)
    (hr : i.request = some r) : (∃ b, Word.classifyAll .commandLine args = .ok b) ∧
      Invocation.parseCommand command args = .ok (r, []) := by
  obtain ⟨p, request, hp, hrequest, rfl⟩ := Invocation.parse_eq_ok_iff.mp h
  obtain rfl : request = some r := hr
  obtain ⟨p₀, hp₀, -, ho, he⟩ := hc.front
  rw [hc.words] at hp
  obtain ⟨hb, rfl⟩ := (Grammar.parse_command_iff hc.name hp₀ ho he).mp hp
  obtain ⟨⟨request, extras⟩, hcommand, heq⟩ := map_eq_ok_iff.mp hrequest
  obtain ⟨hsome, hextras⟩ := Prod.mk.inj heq
  obtain rfl : request = r := Option.some.inj hsome
  obtain rfl : extras = [] := (List.append_eq_nil_iff.mp hextras).2
  exact ⟨hb, hcommand⟩

/-- The words behind the command that are switches for the workspace are the stray ones. -/
theorem switch_iff_stray (hc : CommandAt words front command args gs) (h : Invocation.parse words = .ok i)
    (hr : i.request = some r) {word : String} (hword : word ∈ args.takeWhile (· != "--")) :
    (∃ s value, Word.classify .workspace word = .ok (.switch s value)) ↔ Word.Stray word := by
  refine ⟨fun ⟨s, value, hs⟩ => ?_, Word.Stray.exists_switch⟩
  have hcommand := (hc.parseCommand h hr).2
  rw [Invocation.parseCommand.eq_def] at hcommand
  split at hcommand
  · obtain ⟨q, hq, heq⟩ := map_eq_ok_iff.mp hcommand
    have hextras : q.extras = [] := (Prod.mk.inj heq).2
    obtain ⟨hunknown, hneedless⟩ := Grammar.not_refused (by decide) hq hextras hword
    rcases Word.stray_or_refused hs with hstray | hu | ⟨v, hv⟩
    · exact hstray
    · exact absurd hu hunknown
    · exact absurd hv (hneedless _ v rfl)
  · obtain ⟨q, hq, heq⟩ := map_eq_ok_iff.mp hcommand
    have hextras : q.extras = [] := (Prod.mk.inj heq).2
    rw [Grammar.eq_nil_of_serve hq hextras] at hword
    cases hword
  · cases hcommand

/-- The reading that looks for the workspace finds the switches before the command and no more, if there is none behind
it. -/
theorem given_workspace_iff (hc : CommandAt words front command args gs)
    (hb : ∃ b, Word.classifyAll .commandLine args = .ok b) :
    (Grammar.workspace.parse words).map (·.given) = .ok (gs.filter fun x => x.switch.isPlace) ↔
      ∀ word ∈ args.takeWhile (· != "--"), ¬∃ s value, Word.classify .workspace word = .ok (.switch s value) := by
  obtain ⟨p, hp, rfl, ho, he⟩ := hc.front
  obtain ⟨b, hb⟩ := hb
  obtain ⟨hterm, a, ha, hfold, hswitches⟩ := Grammar.front_cases hp ho he
  obtain ⟨ys, hys, hall⟩ := Word.exists_classifyAll_workspace ha
  obtain ⟨zs, hzs, -⟩ := Word.exists_classifyAll_workspace hb
  obtain ⟨hne, hoperand⟩ := Word.classify_command (g := .workspace) hc.name
  have hwords : Word.classifyAll .workspace words = .ok (ys ++ (command, .operand) :: zs) := by
    rw [hc.words, Word.classifyAll_append hterm, hys, Word.classifyAll_cons hne hoperand, hzs]
    rfl
  have hgiven : p.given.filter (fun x => x.switch.isPlace) = Grammar.places (Grammar.commandLine.acts a) := by
    rw [Grammar.foldlM_perform] at hfold
    obtain ⟨gs, hgs, rfl⟩ := map_eq_ok_iff.mp hfold
    rw [(Grammar.foldlM_accept_eq hgs).1]
    rfl
  have hfront := Grammar.foldlM_accept_front hfold ho he hswitches.2 hall command []
  have hcluster : ∀ x ∈ zs, ∀ s rest, x.2 ≠ .cluster s rest := by
    rintro ⟨word, w⟩ hx s rest rfl
    have hword := ((Word.mem_classifyAll_iff hzs (by simp) (by simp)).mp hx).2
    rcases Word.classify_workspace_cases hword with (h | h) | ⟨-, _, -, h⟩ <;> cases h
  rw [Grammar.map_given_parse (by decide), hwords, hgiven]
  show (Grammar.workspace.acts (ys ++ (command, .operand) :: zs)).foldlM _ [] = _ ↔ _
  rw [Grammar.acts_append_operand (by decide), List.foldlM_append, hfront]
  refine (Grammar.foldlM_accept_iff hcluster _).trans ?_
  constructor
  · rintro h word hword ⟨s, value, hs⟩
    exact h _ ((Word.mem_classifyAll_iff hzs (by simp) (by simp)).mpr ⟨hword, hs⟩) s value rfl
  · rintro h ⟨word, w⟩ hx s value rfl
    obtain ⟨hword, hs⟩ := (Word.mem_classifyAll_iff hzs (by simp) (by simp)).mp hx
    exact h word hword ⟨s, value, hs⟩

end CommandAt

theorem Given.last?_filter {s : Switch} (hs : s.isPlace = true) (gs : List Given) :
    Given.last? s (gs.filter fun x => x.switch.isPlace) = Given.last? s gs := by
  rw [last?, last?, ← List.filter_reverse, List.find?_filter]
  congr 1
  funext x
  by_cases hx : x.switch = s
  · simp [hx, hs]
  · simp [hx]

theorem Place.ofGiven_filter (cwd : Path) (gs : List Given) :
    Place.ofGiven cwd (gs.filter fun x => x.switch.isPlace) = Place.ofGiven cwd gs := by
  simp only [Place.ofGiven, Given.path?, Given.text?, Given.last?_filter (s := .workspace) rfl,
    Given.last?_filter (s := .config) rfl]

namespace World

variable {words : List String} {i : Invocation} {r : Request}

/-- A run in the place that switches ask for. -/
def runFrom (w : World) (making : Making) (serving : Serving) (gs : List Given) (i : Invocation) (r : Request) :
    Outcome :=
  match Place.ofGiven w.tree.cwd gs with
  | .error m => ⟨w.console none, .escaped m, none⟩
  | .ok place => w.runIn making serving place i r

/--
A command line that is accepted has switches, a command, and words behind it. The reading that looks for the workspace
finds exactly the switches before the command unless there is a stray word behind it; then the run is in the place that
these switches ask for.
-/
theorem runBy_reads_front (w : World) (making : Making) (serving : Serving) (h : Invocation.parse words = .ok i)
    (hr : i.request = some r) : (∃ front command args gs, CommandAt words front command args gs) ∧
      ∀ front command args gs, CommandAt words front command args gs →
        ((Grammar.workspace.parse words).map (·.given) = .ok (gs.filter fun x => x.switch.isPlace) ↔
          ∀ word ∈ args.takeWhile (· != "--"), ¬Word.Stray word) ∧
        ((∀ word ∈ args.takeWhile (· != "--"), ¬Word.Stray word) →
          w.runBy making serving words = w.runFrom making serving gs i r) := by
  refine ⟨CommandAt.exists_of_request h hr, fun front command args gs hc => ?_⟩
  have hiff : (Grammar.workspace.parse words).map (·.given) = .ok (gs.filter fun x => x.switch.isPlace) ↔
      ∀ word ∈ args.takeWhile (· != "--"), ¬Word.Stray word := by
    rw [hc.given_workspace_iff (hc.parseCommand h hr).1]
    exact forall₂_congr fun word hword => not_congr (hc.switch_iff_stray h hr hword)
  refine ⟨hiff, fun hnone => ?_⟩
  obtain ⟨p, hp, hgiven⟩ := map_eq_ok_iff.mp (hiff.mpr hnone)
  rw [runBy, hp, runFrom]
  dsimp only
  rw [hgiven, Place.ofGiven_filter]
  cases Place.ofGiven w.tree.cwd gs with
  | error m => rfl
  | ok place => simp only [runAt, h, hr]

/-- Behind two hyphens, the abbreviation is a path and no stray word. -/
theorem runBy_reads_front_terminated :
    let w : World := ⟨⟨[], ⟨1, []⟩⟩, [], ⟨none, none⟩, .plain⟩
    w.run ["--workspace", "b", "format", "--", "--c"] = w.runFrom w.making .finished [⟨.workspace, some "b"⟩]
      ⟨none, false, none, some (.format ⟨["--c"], .write, none, some "utf-8"⟩)⟩
      (.format ⟨["--c"], .write, none, some "utf-8"⟩) := by
  intro w
  have hc : CommandAt ["--workspace", "b", "format", "--", "--c"] ["--workspace", "b"] "format" ["--", "--c"]
      [⟨.workspace, some "b"⟩] := ⟨rfl, by decide, _, rfl, rfl, rfl, rfl⟩
  exact ((runBy_reads_front w w.making .finished rfl rfl).2 _ _ _ _ hc).2 (by simp)

/-- An abbreviation of the switch for checks is taken for a settings file as well, although no switch stands before the
command. -/
theorem run_takes_stray :
    let w : World := ⟨⟨[], ⟨1, []⟩⟩, [], ⟨none, none⟩, .plain⟩
    let i : Invocation := ⟨none, false, none, some (.format ⟨["a"], .check, none, some "utf-8"⟩)⟩
    Invocation.parse ["format", "--c", "a"] = .ok i ∧ CommandAt ["format", "--c", "a"] [] "format" ["--c", "a"] [] ∧
      w.run ["format", "--c", "a"] =
        w.runIn w.making .finished ⟨⟨1, []⟩, some ⟨1, ["a"]⟩⟩ i (.format ⟨["a"], .check, none, some "utf-8"⟩) := by
  intro w i
  have hplace : Place.ofGiven ⟨1, []⟩ [⟨.config, some "a"⟩] = .ok ⟨⟨1, []⟩, some ⟨1, ["a"]⟩⟩ := by cbv
  have hfirst : Grammar.workspace.parse ["format", "--c", "a"] =
      .ok ⟨[⟨.config, some "a"⟩], [], ["format"], false⟩ := rfl
  have hsecond : Invocation.parse ["format", "--c", "a"] = .ok i := rfl
  refine ⟨hsecond, ⟨rfl, by decide, _, rfl, rfl, rfl, rfl⟩, ?_⟩
  rw [run, runBy, hfirst]
  dsimp only
  rw [show Place.ofGiven w.tree.cwd _ = _ from hplace]
  dsimp only
  rw [runAt, hsecond]

end World
end ScriptCase
