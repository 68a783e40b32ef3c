import Stencil.Proofs.Scope.Concurrence

/-!
# Scopes alike

Two chains of frames can answer every question alike without being the same chain: the frames that
bind a name can lie in another order, as long as no two of them bind the same name.
`Scope.Alike` says that two scopes bind the same names to the same bindings, declare the same
templates and lack the same imports, and this is all that is ever asked of a scope.

Pushing a frame keeps scopes alike, and two frames without a name in common can be pushed in either
order (`Scope.Alike.swap`).
-/

namespace Stencil

variable {s s' s'' : Scope} {kind : FrameKind} {bs bs' : List (String × Binding)}

/-- Scopes that answer every question alike. -/
structure Scope.Alike (s s' : Scope) : Prop where
  lookup : ∀ name, s.lookup name = s'.lookup name
  declares : ∀ name, s.declares name = s'.declares name
  /-- Below frames that bind the names seen, the same files are visible. -/
  imports : ∀ seen file, (s.visibleFrom seen).any (fun pair => pair.2.isImportFrom file) =
    (s'.visibleFrom seen).any fun pair => pair.2.isImportFrom file

namespace Scope

namespace Alike

lemma refl (s : Scope) : s.Alike s :=
  ⟨fun _ => rfl, fun _ => rfl, fun _ _ => rfl⟩

lemma trans (h : s.Alike s') (h' : s'.Alike s'') : s.Alike s'' where
  lookup name := (h.lookup name).trans (h'.lookup name)
  declares name := (h.declares name).trans (h'.declares name)
  imports seen file := (h.imports seen file).trans (h'.imports seen file)

/-- The same frame on scopes that are alike. -/
lemma extend (h : s.Alike s') (bs : List (String × Binding)) (kind : FrameKind) :
    (s.extend bs kind).Alike (s'.extend bs kind) where
  lookup name := by rw [lookup_extend, lookup_extend, h.lookup]
  declares name := by rw [declares_extend, declares_extend, h.declares]
  imports seen file := by simp only [Scope.extend, visibleFrom, List.any_append, h.imports]

/-- **Frames without a name in common can be pushed in either order.** -/
theorem swap (s : Scope) (disjoint : List.Disjoint (Keyed.names bs) (Keyed.names bs')) :
    ((s.extend bs kind).extend bs' kind).Alike ((s.extend bs' kind).extend bs kind) where
  lookup name := by
    simp only [lookup_extend, ← Option.or_assoc]
    congr 1
    by_cases named : name ∈ Keyed.names bs
    · rw [Keyed.get?_ofPairs_eq_none_iff.2 (disjoint named), Option.none_or, Option.or_none]
    · rw [Keyed.get?_ofPairs_eq_none_iff.2 named, Option.none_or, Option.or_none]
  declares name := rfl
  imports seen file := by
    -- no name of one frame hides a binding of the other
    have unseen : ∀ {as as' : List (String × Binding)},
        List.Disjoint (Keyed.names as) (Keyed.names as') →
        (Keyed.ofPairs as).filter (fun pair =>
          !((Keyed.ofPairs as').map Prod.fst ++ seen).contains pair.1) =
          (Keyed.ofPairs as).filter fun pair => !seen.contains pair.1 := by
      intro as as' apart
      refine List.filter_congr fun pair hp => ?_
      have here : pair.1 ∈ Keyed.names as := List.mem_map_of_mem (Keyed.mem_of_mem_ofPairs hp)
      have elsewhere : pair.1 ∉ (Keyed.ofPairs as').map Prod.fst :=
        mt Keyed.mem_names_ofPairs_iff.1 (apart here)
      rw [List.contains_eq_mem, List.contains_eq_mem]
      simp only [List.mem_append, elsewhere, false_or]
    have below : s.visibleFrom ((Keyed.ofPairs bs).map Prod.fst ++
        ((Keyed.ofPairs bs').map Prod.fst ++ seen)) =
        s.visibleFrom ((Keyed.ofPairs bs').map Prod.fst ++
          ((Keyed.ofPairs bs).map Prod.fst ++ seen)) := by
      refine visibleFrom_congr s fun name _ => ?_
      simp only [List.mem_append]
      exact or_left_comm
    simp only [Scope.extend, visibleFrom, List.any_append]
    rw [unseen disjoint, unseen fun _ mem mem' => disjoint mem' mem, below]
    exact Bool.or_left_comm _ _ _

/-- Scopes that are alike concur on all words. -/
lemma concurs (h : s.Alike s') : s.Concurs (fun _ => True) s' := by
  refine .of_lookup (fun name _ => ?_) (fun name _ => h.declares name) h.imports
  rw [h.lookup name]
  rcases s'.lookup name with _ | b
  · exact .none
  · exact .some (.self fun _ _ _ _ => trivial)

end Alike

end Scope

end Stencil
