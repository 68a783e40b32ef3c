import Stencil.Proofs.Template.Shadowing

/-!
# A scope as the list of its frames

A scope is walked in two ways.  `Scope.lookup` goes from frame to frame until one binds the name;
`Scope.visible` goes through all of them and leaves out the names that it has seen.  Imports that
clash are found by the first walk and missing imports by the second, so the two have to agree.

`visible_matches_lookup` says that they do, for every scope that is built by pushing frames: each
name that is bound is shown once, with the binding that is looked up, and names of nearer frames are
shown before those that only farther frames bind.
-/

namespace Stencil

namespace Scope

variable {s : Scope} {name : String} {k : Nat}

/-- The bindings of each frame of a scope, the innermost frame first. -/
def frames : Scope → List (Keyed Binding)
  | .root => []
  | .frame parent _ bindings _ => bindings :: parent.frames

@[simp] lemma frames_bind (s : Scope) (name : String) (b : Binding) (kind : FrameKind) :
    (s.bind name b kind).frames = [(name, b)] :: s.frames :=
  rfl

lemma depth_eq_length_frames : (s : Scope) → s.depth = s.frames.length
  | .root => rfl
  | .frame parent _ _ _ => by
    rw [depth, parent.depth_eq_length_frames, frames, List.length_cons]

/-- One of the `k` innermost frames binds a name. -/
def BindsWithin (s : Scope) (k : Nat) (name : String) : Prop :=
  ∃ frame ∈ s.frames.take k, name ∈ Keyed.names frame

/-- A name that a frame binds is bound. -/
lemma BindsWithin.has : {s : Scope} → {k : Nat} → s.BindsWithin k name → s.has name = true
  | .root, _, ⟨_, mem, _⟩ => by simp [frames] at mem
  | .frame parent kind bindings declared, 0, ⟨_, mem, _⟩ => absurd mem List.not_mem_nil
  | .frame parent kind bindings declared, k + 1, ⟨bs, mem, bound⟩ => by
    rw [Scope.has, lookup]
    rcases here : Keyed.get? bindings name with _ | b
    · rcases List.mem_cons.1 mem with rfl | mem
      · exact absurd bound (Keyed.get?_eq_none_iff.1 here)
      · have below : parent.BindsWithin k name := ⟨bs, mem, bound⟩
        exact below.has
    · rfl

/-! ## What is visible, frame by frame -/

/-- Names that were seen are not shown. -/
lemma not_mem_names_visibleFrom : (s : Scope) → ∀ {seen : List String}, name ∈ seen →
    name ∉ Keyed.names (s.visibleFrom seen)
  | .root, _, _ => List.not_mem_nil
  | .frame parent _ bindings _, seen, h => by
    rw [visibleFrom, Keyed.names, List.map_append, List.mem_append, not_or]
    refine ⟨?_, parent.not_mem_names_visibleFrom (List.mem_append_right _ h)⟩
    intro shown
    obtain ⟨pair, hp, rfl⟩ := List.mem_map.1 shown
    have unseen := (List.mem_filter.1 hp).2
    rw [List.contains_eq_mem, decide_eq_true h] at unseen
    cases unseen

/-- No name is shown twice. -/
lemma Proper.nodup_visibleFrom : {s : Scope} → s.Proper → ∀ seen : List String,
    (Keyed.names (s.visibleFrom seen)).Nodup
  | .root, _, _ => List.nodup_nil
  | .frame parent _ bindings _, ⟨nodup, proper⟩, seen => by
    rw [visibleFrom, Keyed.names, List.map_append]
    have here : ((bindings.filter fun pair => !seen.contains pair.1).map Prod.fst).Sublist
        (Keyed.names bindings) := List.filter_sublist.map Prod.fst
    refine List.nodup_append.2 ⟨nodup.sublist here, proper.nodup_visibleFrom _, ?_⟩
    rintro name mem _ below rfl
    exact parent.not_mem_names_visibleFrom (List.mem_append_left seen (here.subset mem)) below

/-- What is visible falls into what the `k` innermost frames bind and what only farther ones do. -/
lemma exists_split_visibleFrom (s : Scope) (k : Nat) (seen : List String) :
    ∃ near far, s.visibleFrom seen = near ++ far ∧
      (∀ name ∈ Keyed.names near, s.BindsWithin k name) ∧
      ∀ name ∈ Keyed.names far, ¬s.BindsWithin k name := by
  -- the frames are taken off one by one, and what each binds is seen from then on
  induction k generalizing s seen with
  | zero =>
    refine ⟨[], _, rfl, fun _ mem => absurd mem List.not_mem_nil, ?_⟩
    rintro name _ ⟨frame, mem, _⟩
    exact absurd mem List.not_mem_nil
  | succ k ih =>
    cases s with
    | root => exact ⟨[], [], rfl, nofun, nofun⟩
    | frame parent kind bindings declared =>
      obtain ⟨near, far, split, inside, outside⟩ := ih parent (bindings.map Prod.fst ++ seen)
      refine ⟨_, far, by rw [visibleFrom, split, List.append_assoc], ?_, ?_⟩
      · intro name mem
        rw [Keyed.names, List.map_append, List.mem_append] at mem
        rcases mem with mem | mem
        · obtain ⟨pair, hp, rfl⟩ := List.mem_map.1 mem
          exact ⟨bindings, List.mem_cons_self, List.mem_map_of_mem (List.mem_filter.1 hp).1⟩
        · obtain ⟨frame, hf, bound⟩ := inside name mem
          exact ⟨frame, List.mem_cons_of_mem _ hf, bound⟩
      · rintro name mem ⟨frame, hf, bound⟩
        rcases List.mem_cons.1 hf with rfl | hf
        · -- what the innermost frame binds is seen below it
          have shown : name ∈ Keyed.names (near ++ far) := by
            rw [Keyed.names, List.map_append]
            exact List.mem_append_right _ mem
          rw [← split] at shown
          exact parent.not_mem_names_visibleFrom (List.mem_append_left seen bound) shown
        · exact outside name mem ⟨frame, hf, bound⟩

lemma IsBuilt.mem_names_visible_iff (built : s.IsBuilt) :
    name ∈ Keyed.names s.visible ↔ s.has name = true := by
  rw [has, Option.isSome_iff_exists, Keyed.names, List.mem_map]
  constructor
  · rintro ⟨⟨name, b⟩, shown, rfl⟩
    exact ⟨b, (mem_visible_iff_lookup built.proper).1 shown⟩
  · rintro ⟨b, found⟩
    exact ⟨(name, b), (mem_visible_iff_lookup built.proper).2 found, rfl⟩

/-- Names of nearer frames are shown before names that only farther frames bind. -/
lemma IsBuilt.sublist_names_visible (built : s.IsBuilt) {near far : String}
    (inside : s.BindsWithin k near) (outside : ¬s.BindsWithin k far) (has : s.has far = true) :
    List.Sublist [near, far] (Keyed.names s.visible) := by
  obtain ⟨first, rest, split, within, beyond⟩ := s.exists_split_visibleFrom k []
  have split : s.visible = first ++ rest := split
  have shown := built.mem_names_visible_iff.2 inside.has
  have shown' := built.mem_names_visible_iff.2 has
  rw [split, Keyed.names, List.map_append, List.mem_append] at shown shown'
  have early : near ∈ Keyed.names first := shown.resolve_right fun late => beyond near late inside
  have late : far ∈ Keyed.names rest := shown'.resolve_left fun early => outside (within far early)
  rw [split, Keyed.names, List.map_append]
  exact (List.singleton_sublist.2 early).append (List.singleton_sublist.2 late)

/-- **What is visible is what is looked up.**  Each bound name is shown once, with the binding that
is looked up; names of the `k` innermost frames are shown before names that only farther frames
bind; and where a frame is pushed, its last binding of a name is looked up, or else what was looked
up before. -/
theorem visible_matches_lookup {s : Scope} (built : s.IsBuilt) :
    (Keyed.names s.visible).Nodup ∧
    (∀ name b, (name, b) ∈ s.visible ↔ s.lookup name = some b) ∧
    (∀ name, name ∈ Keyed.names s.visible ↔ s.has name = true) ∧
    (∀ k near far, s.BindsWithin k near → ¬s.BindsWithin k far → s.has far = true →
      List.Sublist [near, far] (Keyed.names s.visible)) ∧
    ∀ bs kind name, (s.extend bs kind).lookup name =
      ((bs.filter fun pair => pair.1 == name).getLast?.map Prod.snd).or (s.lookup name) := by
  refine ⟨built.proper.nodup_visibleFrom [], fun _ _ => mem_visible_iff_lookup built.proper,
    fun _ => built.mem_names_visible_iff, ?_, ?_⟩
  · intro k near far inside outside has
    exact built.sublist_names_visible inside outside has
  · intro bs kind name
    rw [lookup_extend, Keyed.get?_ofPairs]

/-- Values under a document's mark and below a call that binds one of them again, and a name of its
own twice. -/
def layered : Scope :=
  ((Scope.root.extend [("width", .value ⟨.null, .none⟩), ("height", .value ⟨.null, .none⟩)]
    .external).enterDocument ["box"]).extend
      [("label", .value ⟨.null, .none⟩), ("height", .value ⟨.boolean true, .none⟩),
        ("label", .value ⟨.string "text", .none⟩)] .call

/-- The height of the call is shown before the width, and the label is the later one. -/
theorem layered_visible : layered.IsBuilt ∧ layered.BindsWithin 1 "height" ∧
    ¬layered.BindsWithin 1 "width" ∧ layered.has "width" = true ∧
    List.Sublist ["height", "width"] (Keyed.names layered.visible) ∧
    ("label", .value ⟨.string "text", .none⟩) ∈ layered.visible := by
  have built : layered.IsBuilt := ((IsBuilt.root.extend _ _).enterDocument _).extend _ _
  have near : layered.BindsWithin 1 "height" :=
    ⟨_, List.mem_cons_self, List.mem_cons_of_mem _ List.mem_cons_self⟩
  have far : ¬layered.BindsWithin 1 "width" := by
    rintro ⟨frame, mem, bound⟩
    obtain rfl := List.mem_singleton.1 mem
    revert bound
    decide
  obtain ⟨_, looked, _, ordered, _⟩ := visible_matches_lookup built
  exact ⟨built, near, far, rfl, ordered 1 _ _ near far rfl, (looked _ _).2 rfl⟩

end Scope

end Stencil
