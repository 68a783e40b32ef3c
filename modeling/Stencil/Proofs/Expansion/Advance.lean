import Stencil.Proofs.Document.Again
import Stencil.Proofs.Expansion.Limits

/-!
# Arguments expanded in advance

The nodes that a call passes are captured with the scope of the call and expanded where they are
used: once for each use, each time at another depth, and again where a further call passes them on.
They might as well be expanded once, before the call, and passed as results.

`Scope.Advances` relates a scope to one in which some captured nodes are replaced by what they come
to, however deep.  Where the one run reads captured nodes and expands them, the other reads a
result, which holds no marker and is left as it is (`expandNodes_root`); that both come to the same
is the determinism of silent runs (`Expands.nodes_unique`).  So a silent run is improved on
(`Expands.improves`): the same nodes, still no report, and no more calls.  The converse does not
hold, since an argument that is never used need not expand without a report.
-/

namespace Stencil

open Journal

/-! ## One result -/

/-- Two runs of one subject under one scope that report nothing come to the same nodes.  The limits,
the depth and the calls made before may differ between them: these are only ever asked for a call,
and a call that they refuse is reported. -/
lemma Expands.nodes_unique {c c' : Config} {used used' : Nat} {depth depth' : Depth} {s : Scope}
    {x : Subject} {e e' : Expansion} {k k' : Nat} (h : Expands c used depth s x e k)
    (h' : Expands c' used' depth' s x e' k') (silent : e.journal.diagnostics = [])
    (silent' : e'.journal.diagnostics = []) : e.nodes = e'.nodes := by
  -- a reading depends on the scope and the node alone, so both runs go by the same rule; only a
  -- limit could part them, and a limit that is met reports
  induction h generalizing used' depth' e' k' with
  | nothing reading => cases h' <;> simp_all
  | kept reading => cases h' <;> simp_all
  | plain reading _ ih =>
    cases h' <;> simp_all
    exact congrArg _ (ih ‹_› silent')
  | captured reading _ ih =>
    cases h' <;> simp_all
    exact ih ‹_› silent'
  | limited => simp at silent
  | refused reading _ binding => cases h' <;> simp_all
  | called reading _ binding _ ih =>
    cases h' <;> simp_all
    exact ih ‹_› silent'.2
  | nil => cases h'; rfl
  | cons head tail ih₁ ih₂ =>
    cases h' with
    | cons head' tail' =>
      simp at silent silent'
      simp [ih₁ head' silent.1 silent'.1, ih₂ tail' silent.2 silent'.2]

/-! ## Arguments that are expanded -/

/-- A journal without a report and with no more calls than another. -/
structure Journal.Improves (j' j : Journal) : Prop where
  silent : j'.diagnostics = []
  calls : j'.callCount ≤ j.callCount

/-- An expansion to the same nodes as another, without a report and with no more calls. -/
structure Expansion.Improves (e' e : Expansion) : Prop where
  nodes : e'.nodes = e.nodes
  journal : e'.journal.Improves e.journal

namespace Journal.Improves

variable {a b a' b' : Journal}

lemma refl (silent : a.diagnostics = []) : a.Improves a :=
  ⟨silent, Nat.le_refl _⟩

lemma append (h : a'.Improves a) (h' : b'.Improves b) : (a' ++ b').Improves (a ++ b) where
  silent := by simp [h.silent, h'.silent]
  calls := by
    have := h.calls
    have := h'.calls
    simp only [Journal.callCount, Journal.calls_append, List.length_append] at *
    omega

/-- A call is journalled by itself, whatever its number. -/
lemma call {c : Config} {number number' : Nat} {call : Call} {faults : List Diagnostic}
    (silent : (Journal.report faults ++ c.callJournal number call).diagnostics = []) :
    (Journal.report faults ++ c.callJournal number' call).Improves
      (Journal.report faults ++ c.callJournal number call) :=
  ⟨silent, Nat.le_refl 1⟩

end Journal.Improves

namespace Expansion.Improves

variable {a b a' b' : Expansion}

lemma refl (silent : a.journal.diagnostics = []) : a.Improves a :=
  ⟨rfl, .refl silent⟩

lemma append (h : a'.Improves a) (h' : b'.Improves b) : (a' ++ b').Improves (a ++ b) where
  nodes := by simp [h.nodes, h'.nodes]
  journal := h.journal.append h'.journal

end Expansion.Improves

/-- Under a scope, some nodes can only come to certain others if they are expanded without a report,
and those hold no marker.  The first is asked of every configuration and depth, since the nodes may
be used at any; the second is what lets the result stand for itself when it is read again. -/
structure Scope.Settles (s : Scope) (nodes result : List Node) : Prop where
  expands : ∀ (c : Config) (used : Nat) (depth : Depth),
    (expandNodes c used depth s nodes).journal.diagnostics = [] →
      (expandNodes c used depth s nodes).nodes = result
  inert : expandWord ∉ Node.namesAll result

mutual

/-- Scopes that differ in what the one has captured and the other has expanded in advance. -/
inductive Scope.Advances : Scope → Scope → Prop
  | same (s : Scope) : Scope.Advances s s
  | frame (parent : Scope) (kind : FrameKind) {bs bs' : Keyed Binding}
      (related : Keyed.Related Binding.Advances bs bs') (declared : Option (List String)) :
      Scope.Advances (.frame parent kind bs declared) (.frame parent kind bs' declared)

/-- Bindings that differ in what the one has captured and the other has expanded in advance, or in
the scopes that both have captured. -/
inductive Binding.Advances : Binding → Binding → Prop
  | same (b : Binding) : Binding.Advances b b
  | node (n : Node) {s s' : Scope} (scopes : Scope.Advances s s') :
      Binding.Advances (.node n s) (.node n s')
  | splice (nodes : List Node) {s s' : Scope} (scopes : Scope.Advances s s') :
      Binding.Advances (.splice nodes s) (.splice nodes s')
  | expandedNode {n v : Node} {s : Scope} (settles : s.Settles [n] [v]) :
      Binding.Advances (.node n s) (.node v .root)
  | expandedSplice {nodes result : List Node} {s : Scope} (settles : s.Settles nodes result) :
      Binding.Advances (.splice nodes s) (.splice result .root)

end

/-- Readings that lead to the same nodes under scopes that differ in what is expanded in advance. -/
inductive Reading.Advances : Reading → Reading → Prop
  | nothing : Reading.Advances .nothing .nothing
  | kept (call : Node) : Reading.Advances (.kept call) (.kept call)
  | plain (m : Node) : Reading.Advances (.plain m) (.plain m)
  | call (t : Template) (call : Node) : Reading.Advances (.call t call) (.call t call)
  | captured (nodes : List Node) {inner inner' : Scope} (scopes : inner.Advances inner') :
      Reading.Advances (.captured nodes inner) (.captured nodes inner')
  | expanded {nodes result : List Node} {inner : Scope} (settles : inner.Settles nodes result) :
      Reading.Advances (.captured nodes inner) (.captured result .root)

lemma Reading.Advances.same (r : Reading) : Reading.Advances r r := by
  cases r with
  | nothing => exact .nothing
  | plain m => exact .plain m
  | call t call => exact .call t call
  | kept call => exact .kept call
  | captured nodes inner => exact .captured nodes (.same inner)

namespace Scope.Advances

variable {s s' : Scope} {n : Node}

lemma isImportFrom_eq {b b' : Binding} (h : b.Advances b') (file : String) :
    b.isImportFrom file = b'.isImportFrom file := by
  cases h <;> rfl

lemma lookup (h : s.Advances s') (name : String) :
    Option.Rel Binding.Advances (s.lookup name) (s'.lookup name) := by
  cases h with
  | same =>
    rcases s.lookup name with _ | b
    · exact .none
    · exact .some (.same b)
  | frame parent kind related declared =>
    exact lookup_related .same related parent kind declared name

lemma unboundName_eq (h : s.Advances s') (name : Spanned String) :
    s.unboundName name = s'.unboundName name := by
  cases h with
  | same => rfl
  | frame parent kind related declared =>
    have lacks := lacksImport_related (fun _ _ h => isImportFrom_eq h) related parent kind
      declared name.inner
    unfold unboundName
    rw [lacks]
    rfl

lemma valueOf_eq (h : s.Advances s') (v : Spanned Scalar) : s.valueOf v = s'.valueOf v := by
  unfold Scope.valueOf
  split
  · next x string =>
    generalize s.lookup x = a, s'.lookup x = a', h.lookup x = related
    cases related with
    | none => rfl
    | some related => cases related <;> rfl
  · rfl

lemma entriesOf_eq (h : s.Advances s') (entries : List Entry) :
    s.entriesOf entries = s'.entriesOf entries := by
  have same : s.entryOf = s'.entryOf := by
    funext e
    rw [entryOf, entryOf, h.valueOf_eq]
  rw [entriesOf, entriesOf, same]

lemma readMarker (h : s.Advances s') (n : Node) :
    Reading.Advances (s.readMarker n).1 (s'.readMarker n).1 ∧
      (s.readMarker n).2 = (s'.readMarker n).2 := by
  unfold Scope.readMarker
  split
  · next target _ _ =>
    generalize s.lookup target.inner = a, s'.lookup target.inner = a',
      h.lookup target.inner = related
    cases related with
    | none => exact ⟨.nothing, rfl⟩
    | @some b _ related =>
      cases related with
      | same => cases b <;> exact ⟨.same _, rfl⟩
      | node => exact ⟨.nothing, rfl⟩
      | splice nodes scopes => exact ⟨.captured nodes scopes, rfl⟩
      | expandedNode => exact ⟨.nothing, rfl⟩
      | expandedSplice settles => exact ⟨.expanded settles, rfl⟩
  · exact ⟨.nothing, rfl⟩

lemma readRenamed_eq (h : s.Advances s') (n : Node) (value : Spanned Scalar) :
    s.readRenamed n value = s'.readRenamed n value := by
  unfold Scope.readRenamed
  split
  · next x string =>
    dsimp only
    generalize s.lookup x = a, s'.lookup x = a', h.lookup x = related
    cases related with
    | none => rfl
    | some related => cases related <;> rfl
  · rfl

/-- A node is read alike. -/
lemma reading (h : s.Advances s') (n : Node) :
    Reading.Advances (s.reading n).1 (s'.reading n).1 ∧ (s.reading n).2 = (s'.reading n).2 := by
  unfold Scope.reading
  split
  · exact h.readMarker n
  · generalize s.lookup n.name.inner = a, s'.lookup n.name.inner = a',
      h.lookup n.name.inner = related
    cases related with
    | none => exact ⟨.plain n, h.unboundName_eq n.name⟩
    | @some b _ related =>
      cases related with
      | same =>
        cases b with
        | value v =>
          dsimp only
          rw [h.readRenamed_eq]
          exact ⟨.same _, rfl⟩
        | _ => exact ⟨.same _, rfl⟩
      -- captured nodes are read as captured in both scopes, or in the one only where the other has
      -- what they come to
      | node n scopes => exact ⟨.captured [n] scopes, rfl⟩
      | splice => exact ⟨.nothing, rfl⟩
      | expandedNode settles => exact ⟨.expanded settles, rfl⟩
      | expandedSplice => exact ⟨.nothing, rfl⟩

/-- The reading of a node, with what it comes to where more is expanded in advance. -/
lemma exists_reading (h : s.Advances s') {r : Reading} {problems : List Diagnostic}
    (reading : s.reading n = (r, problems)) :
    ∃ r', s'.reading n = (r', problems) ∧ r.Advances r' := by
  obtain ⟨advances, same⟩ := h.reading n
  rw [reading] at advances same
  exact ⟨(s'.reading n).1, Prod.ext rfl same.symm, advances⟩

/-- A call that can be made is made with a frame in which more is expanded in advance. -/
lemma exists_bindCall (h : s.Advances s') {t : Template} {call : Node} {frame : Scope}
    {faults : List Diagnostic} (binding : t.bindCall call s = (some frame, faults)) :
    ∃ frame', t.bindCall call s' = (some frame', faults) ∧ frame.Advances frame' := by
  have bindings : ∀ b b', t.BindsAlike call s s' b b' → b.Advances b' := by
    intro b b' alike
    cases alike with
    | value =>
      rw [h.valueOf_eq]
      exact .same _
    | node => exact .node _ h
    | splice => exact .splice _ h
    | fallback => exact .same b
  obtain ⟨problems, ends⟩ := t.bindCall_alike fun v _ => congrArg Prod.snd (h.valueOf_eq v)
  rw [binding] at problems ends
  obtain ⟨made, _⟩ | ⟨bs, bs', made, made', related⟩ := ends
  · cases made
  · obtain rfl := Option.some.inj made
    exact ⟨_, Prod.ext made' problems.symm,
      .frame t.home .call (related.mono bindings).ofPairs t.home.declared?⟩

end Scope.Advances

/-! ## Whole runs -/

/-- A call that is allowed is allowed after fewer calls. -/
lemma Config.exceededLimit_eq_none_of_le {c : Config} {depth : Depth} {used used' : Nat}
    (le : used' ≤ used) (allowed : c.exceededLimit? depth used = none) :
    c.exceededLimit? depth used' = none := by
  rw [exceededLimit_eq_none_iff] at allowed ⊢
  exact ⟨allowed.1, Number.atMost_eq_false_of_le (by omega) allowed.2⟩

/-- A silent run is improved on by a run in which more is expanded in advance, under the same limits
and after no more calls.  The depth is the same, too: a captured node is expanded where it is used,
so a run without it can only be shallower. -/
theorem Expands.improves {c : Config} {used used' : Nat} {depth : Depth} {s s' : Scope}
    {x : Subject} {e : Expansion} {k : Nat} (h : Expands c used depth s x e k)
    (silent : e.journal.diagnostics = []) (scopes : s.Advances s') (le : used' ≤ used) :
    (c.expansion used' depth s' x).Improves e := by
  -- the induction is on the run with captured nodes; the calls made before the other run, and its
  -- scope, change along the way
  induction h generalizing used' s' with
  | nothing reading =>
    obtain ⟨_, reading', advances⟩ := scopes.exists_reading reading
    cases advances
    rw [Config.expansion, expandNode_of_nothing reading']
    exact .refl silent
  | kept reading =>
    obtain ⟨_, reading', advances⟩ := scopes.exists_reading reading
    cases advances
    rw [Config.expansion, expandNode_of_kept reading']
    exact .refl silent
  | plain reading inner ih =>
    obtain ⟨_, reading', advances⟩ := scopes.exists_reading reading
    cases advances
    rw [Config.expansion, expandNode_of_plain reading', ← scopes.entriesOf_eq]
    rw [Journal.diagnostics_append, List.append_eq_nil_iff] at silent
    have children := ih silent.2 scopes le
    rw [Config.expansion] at children
    exact ⟨by rw [children.nodes], (Journal.Improves.refl silent.1).append children.journal⟩
  | @captured used depth _ _ _ _ _ e _ reading inner ih =>
    obtain ⟨_, reading', advances⟩ := scopes.exists_reading reading
    cases advances with
    | captured nodes scopes =>
      rw [Config.expansion, expandNode_of_captured reading']
      exact ih silent scopes le
    | @expanded _ result _ settles =>
      -- here the runs part: this one expands the nodes that it has captured, the other one reads
      -- the result and finds no marker in it
      obtain rfl := inner.eq_expansion
      have nodes : _ = result := settles.expands c used depth silent
      rw [Config.expansion, expandNode_of_captured reading',
        expandNodes_root c used' depth result settles.inert]
      exact ⟨nodes.symm, rfl, Nat.zero_le _⟩
  | limited => simp at silent
  | refused reading _ binding => exact absurd silent (Template.ne_nil_of_bindCall_eq_none binding)
  | called reading check binding _ ih =>
    obtain ⟨_, reading', advances⟩ := scopes.exists_reading reading
    cases advances
    obtain ⟨frame', binding', frames⟩ := scopes.exists_bindCall binding
    -- no more calls were made before, so the limits that allow the call here allow it there
    rw [Config.expansion, expandNode_of_called reading'
      (Config.exceededLimit_eq_none_of_le le check) binding']
    rw [Journal.diagnostics_append, List.append_eq_nil_iff] at silent
    have body := ih silent.2 frames (Nat.succ_le_succ le)
    rw [Config.expansion] at body
    exact ⟨body.nodes, (Journal.Improves.call silent.1).append body.journal⟩
  | nil =>
    rw [Config.expansion, expandNodes_nil]
    exact .refl rfl
  | cons head tail ih₁ ih₂ =>
    rw [Expansion.journal_append, Journal.diagnostics_append, List.append_eq_nil_iff] at silent
    have first := ih₁ silent.1 scopes le
    -- the calls that the first sibling saves are there for the others
    have others := ih₂ silent.2 scopes (Nat.add_le_add le first.journal.calls)
    rw [Config.expansion] at first others
    rw [Config.expansion, expandNodes_cons]
    exact first.append others

/-! ## Calls with expanded arguments -/

/-- A binding as a call makes it, or with its nodes replaced by what some run without a report makes
of them.  What is expanded needs no scope. -/
inductive Binding.ExpandedOnce : Binding → Binding → Prop
  | kept (b : Binding) : Binding.ExpandedOnce b b
  | node {c : Config} {used : Nat} {depth : Depth} {n v : Node} {s : Scope}
      (nodes : (expandNode c used depth s n).nodes = [v])
      (silent : (expandNode c used depth s n).journal.diagnostics = []) :
      Binding.ExpandedOnce (.node n s) (.node v .root)
  | splice {c : Config} {used : Nat} {depth : Depth} {nodes result : List Node} {s : Scope}
      (expanded : (expandNodes c used depth s nodes).nodes = result)
      (silent : (expandNodes c used depth s nodes).journal.diagnostics = []) :
      Binding.ExpandedOnce (.splice nodes s) (.splice result .root)

/-- A frame, and the same frame with any of its arguments expanded. -/
inductive Scope.ExpandedOnce : Scope → Scope → Prop
  | frame (parent : Scope) (kind : FrameKind) {bs bs' : Keyed Binding}
      (related : Keyed.Related Binding.ExpandedOnce bs bs') (declared : Option (List String)) :
      Scope.ExpandedOnce (.frame parent kind bs declared) (.frame parent kind bs' declared)

/-- A call of a template by which no string can come to name the marker, and under whose scopes
every template is well-formed. -/
structure Template.IsUnmarked (t : Template) (call : Node) (s : Scope) : Prop where
  call : expandWord ∉ call.strings
  body : expandWord ∉ t.body.strings
  defaults : ∀ p ∈ t.tparameters, expandWord ∉ p.form.strings
  home : ∀ b, t.home.Reaches b → b.isMalformed = false ∧ expandWord ∉ b.strings
  scope : ∀ b, s.Reaches b → b.isMalformed = false ∧ expandWord ∉ b.strings

/-- Writing the marker's name is never let through, so it is barred where no string is it. -/
lemma Scope.bars_marker {s : Scope}
    (h : ∀ b, s.Reaches b → b.isMalformed = false ∧ expandWord ∉ b.strings) :
    s.Bars expandWord where
  reports := .inl rfl
  reached b reached := ⟨(h b reached).1, (h b reached).2, fun _ _ => .inl rfl⟩

/-- Under a scope that bars the marker, a silent run settles what some nodes come to. -/
lemma Scope.Bars.settles {s : Scope} {nodes : List Node} (bars : s.Bars expandWord)
    (unwritten : expandWord ∉ Node.stringsAll nodes) {c : Config} {used : Nat} {depth : Depth}
    (silent : (expandNodes c used depth s nodes).journal.diagnostics = []) :
    s.Settles nodes (expandNodes c used depth s nodes).nodes := by
  obtain ⟨_, run⟩ := exists_expands c used depth s (.siblings nodes)
  refine ⟨fun c' used' depth' silent' => ?_, run.not_mem_names bars unwritten ?_⟩
  · obtain ⟨_, run'⟩ := exists_expands c' used' depth' s (.siblings nodes)
    exact run'.nodes_unique run silent' silent
  · rw [Config.expansion, hasErrors, silent]
    rfl

/-- A node alone comes to what it comes to as the only sibling. -/
lemma expandNodes_singleton (c : Config) (used : Nat) (depth : Depth) (s : Scope) (n : Node) :
    (expandNodes c used depth s [n]).nodes = (expandNode c used depth s n).nodes ∧
      (expandNodes c used depth s [n]).journal.diagnostics =
        (expandNode c used depth s n).journal.diagnostics := by
  rw [expandNodes_cons, expandNodes_nil]
  simp

namespace Template.IsUnmarked

variable {t : Template} {call : Node} {s frame frame' : Scope} {b b' : Binding}

/-- What is expanded in advance, of what such a call binds, is settled. -/
lemma advances (h : t.IsUnmarked call s) (made : t.BindsAlike call s s b b)
    (expanded : b.ExpandedOnce b') : b.Advances b' := by
  have template : (Binding.template (some t) .declared none t.span).Bars expandWord := by
    refine ⟨rfl, fun written => ?_, fun _ _ => .inl rfl⟩
    rcases List.mem_append.1 written with written | written
    · exact h.body written
    · obtain ⟨p, declared, written⟩ := List.mem_flatMap.1 written
      exact h.defaults p declared written
  -- a node is captured with the scope of the call or with the home of the template, and no string
  -- of either is the name of the marker
  obtain ⟨bars, captured⟩ := bars_of_bindsAlike (Scope.bars_marker h.scope)
    (Scope.bars_marker h.home) template h.call made
  cases expanded with
  | kept => exact .same b
  | @node c used depth n v s nodes silent =>
    obtain ⟨nodes_eq, diagnostics_eq⟩ := expandNodes_singleton c used depth s n
    have unwritten : expandWord ∉ Node.stringsAll [n] := by
      simpa [Node.stringsAll, Binding.strings] using bars.unwritten
    have settles := (captured s rfl).settles unwritten (diagnostics_eq.trans silent)
    rw [nodes_eq, nodes] at settles
    exact .expandedNode settles
  | splice expanded silent =>
    subst expanded
    exact .expandedSplice ((captured _ rfl).settles bars.unwritten silent)

lemma frame_advances (h : t.IsUnmarked call s) (made : (t.bindCall call s).1 = some frame)
    (expanded : frame.ExpandedOnce frame') : frame.Advances frame' := by
  obtain ⟨bs, rfl, binds⟩ := exists_of_bindCall made
  rw [Scope.extend] at expanded
  cases expanded with
  | frame _ _ related =>
    refine .frame _ _ (related.mono_of_mem fun pair hp b expanded => ?_) _
    exact h.advances (binds pair (Keyed.mem_of_mem_ofPairs hp)) expanded

end Template.IsUnmarked

/-- **Arguments may be expanded once, in advance.**  Let the call of a template be bound in a frame,
and let some of the nodes that the frame binds be replaced by what they expand to.  If the body
expands without a report under the frame, at any depth and under any limits, then under the other
frame it expands to the same nodes, without a report and with no more calls. -/
theorem expandNode_of_expandedOnce {t : Template} {call : Node} {s frame frame' : Scope}
    (unmarked : t.IsUnmarked call s) (made : (t.bindCall call s).1 = some frame)
    (expanded : frame.ExpandedOnce frame') (c : Config) (used : Nat) (depth : Depth)
    (silent : (expandNode c used depth frame t.body).journal.diagnostics = []) :
    (expandNode c used depth frame' t.body).Improves (expandNode c used depth frame t.body) := by
  obtain ⟨_, run⟩ := exists_expands c used depth frame (.node t.body)
  exact run.improves silent (unmarked.frame_advances made expanded) (Nat.le_refl used)

/-- A template that places a node twice and then the rest of what it is given. -/
def Template.pair : Template where
  name := "pair"
  tparameters := [⟨"shape", .none, .node (.bare "line" [])⟩, ⟨"rest", .none, .splice []⟩]
  body := .bare "group" [.bare "shape" [], .bare "shape" [], .naming expandWord "rest"]
  home := .root
  style := .none
  span := .none

/-- A call that passes a box, and a line for the rest. -/
def Node.pairOfBoxes : Node :=
  .bare "pair" [.bare "shape" [.bare "shapes/box" []], .bare "rest" [.bare "line" []]]

/-- The frame of such a call, over the arguments of its node and of its splice. -/
def Scope.pairFrame (node : Node) (rest : List Node) (s : Scope) : Scope :=
  Scope.root.extend [("shape", .node node s), ("rest", .splice rest s)] .call

lemma Template.isUnmarked_pair : Template.pair.IsUnmarked .pairOfBoxes .shapes where
  call := by decide
  body := by decide
  defaults := by decide
  home _ reached := absurd reached Scope.not_reaches_root
  scope _ reached :=
    ⟨Scope.isOuter_shapes.wellFormed reached, Scope.not_mem_strings_shapes reached⟩

lemma exists_expands_box : ∃ e k,
    Expands .default 0 .top .shapes (.node (.bare "shapes/box" [])) e k ∧
      e.nodes = [.bare "rect" []] ∧ e.journal.diagnostics = [] :=
  have reading : Scope.shapes.reading (.bare "shapes/box" []) =
      (.call .box (.bare "shapes/box" []), []) := rfl
  ⟨_, _, .called reading rfl rfl (.plain rfl .nil), rfl, rfl⟩

lemma exists_expands_line : ∃ e k,
    Expands .default 0 .top .shapes (.siblings [.bare "line" []]) e k ∧
      e.nodes = [.bare "line" []] ∧ e.journal.diagnostics = [] :=
  ⟨_, _, .cons (.plain rfl .nil) .nil, rfl, rfl⟩

/-- A box that takes a call at each of its places takes none once it is expanded. -/
theorem boxes_expanded_once :
    (Template.pair.bindCall .pairOfBoxes .shapes).1 =
        some (.pairFrame (.bare "shapes/box" []) [.bare "line" []] .shapes) ∧
      (expandNode .default 0 .top (.pairFrame (.bare "rect" []) [.bare "line" []] .root)
          Template.pair.body).Improves
        (expandNode .default 0 .top
          (.pairFrame (.bare "shapes/box" []) [.bare "line" []] .shapes) Template.pair.body) := by
  have made : (Template.pair.bindCall .pairOfBoxes .shapes).1 =
      some (.pairFrame (.bare "shapes/box" []) [.bare "line" []] .shapes) := rfl
  have expanded : Scope.ExpandedOnce
      (.pairFrame (.bare "shapes/box" []) [.bare "line" []] .shapes)
      (.pairFrame (.bare "rect" []) [.bare "line" []] .root) := by
    refine .frame _ _ (.cons ?_ (.cons ?_ .nil)) _
    · obtain ⟨_, _, run, nodes, silent⟩ := exists_expands_box
      obtain rfl := run.eq_expansion
      exact .node nodes silent
    · obtain ⟨_, _, run, nodes, silent⟩ := exists_expands_line
      obtain rfl := run.eq_expansion
      exact .splice nodes silent
  exact ⟨made, expandNode_of_expandedOnce Template.isUnmarked_pair made expanded _ _ _
    (by decide +kernel)⟩

end Stencil
