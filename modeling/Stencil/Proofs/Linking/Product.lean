import Stencil.Proofs.Document.Body
import Stencil.Proofs.Linking.Resolution

/-!
# What one file gives

In a linking, a file is read after the calls of the files before it and with the tables that those
gave.  Neither matters beyond need.  Of the tables, the file reads those that it requests
(`LinkUnit.Gives.congr`); and the number of calls before it could only make it stop, so it gives
the same whenever the limit admits all of its calls (`LinkUnit.Gives.after`).

The limit on depth is not mentioned: the depth starts anew with each file, so a file meets it in a
linking exactly where it meets it alone.
-/

namespace Stencil

/-! ## Products -/

/-- What a file gives: an export table or a body. -/
inductive Product where
  | table (table : ExportTable)
  | body (node : Node)

/-- A product in its place among the tables and the bodies. -/
def Product.entry : Product → Option ExportTable × Option Node
  | table t => (some t, none)
  | body n => (none, some n)

namespace Linked

variable {l : Linked} {id other : String} {p : Product}

/-- What was linked under a name among the tables and the bodies. -/
def entry (l : Linked) (id : String) : Option ExportTable × Option Node :=
  (l.exports.get? id, l.nodes.get? id)

/-- What was linked, with a product put under a name. -/
def put (l : Linked) (id : String) : Product → Linked
  | .table t => { l with exports := l.exports.put id t }
  | .body n => { l with nodes := l.nodes.put id n }

lemma entry_put_of_ne (ne : id ≠ other) : (l.put id p).entry other = l.entry other := by
  cases p <;> simp [put, entry, Keyed.get?_put, ne]

lemma entry_put_self (fresh : l.entry id = (none, none)) : (l.put id p).entry id = p.entry := by
  rw [entry, Prod.mk.injEq] at fresh
  cases p <;> simp [put, entry, Product.entry, Keyed.get?_put, fresh]

end Linked

/-- What a document gives when it is read on a scope after `used` calls of the run, and the
journal. -/
def Document.product (c : Config) (used : Nat) (d : Document) (scope : Scope) :
    Option Product × Journal :=
  if Linkage.endsInExports d then
    ((d.exportsOn c scope).1.map .table, (d.exportsOn c scope).2)
  else ((d.expandOn c used scope).1.map .body, (d.expandOn c used scope).2)

namespace Document

variable {c : Config} {used used' : Nat} {d : Document} {scope : Scope} {p : Product}
variable {j : Journal}

lemma read_eq (linked : Linked) (id : String) :
    Linkage.read c used linked id d scope =
      ((d.product c used scope).1.elim linked (linked.put id), (d.product c used scope).2) := by
  unfold Linkage.read product
  split
  · rcases d.exportsOn c scope with ⟨_ | table, journal⟩ <;> rfl
  · rcases d.expandOn c used scope with ⟨_ | node, journal⟩ <;> rfl

lemma hasErrors_emptyReport : d.emptyReport.hasErrors = true :=
  Journal.hasErrors_report_reportedAt _ _

lemma exists_exportsOn (clean : (d.exportsOn c scope).2.hasErrors = false) :
    ∃ table, (d.exportsOn c scope).1 = some table := by
  unfold exportsOn at clean ⊢
  split
  · next none =>
    rw [none, hasErrors_emptyReport] at clean
    cases clean
  · split <;> exact ⟨_, rfl⟩

lemma exists_soleNode {body : Node} {e : Expansion}
    (clean : (soleNode body e).2.hasErrors = false) : ∃ node, (soleNode body e).1 = some node := by
  unfold soleNode at clean ⊢
  split
  · exact ⟨_, rfl⟩
  · next nodes ne =>
    exfalso
    revert clean
    split
    · next node sole => exact absurd sole (ne node)
    · split
      · next errors => simp [errors]
      · simp

lemma exists_expandOn (clean : (d.expandOn c used scope).2.hasErrors = false) :
    ∃ node, (d.expandOn c used scope).1 = some node := by
  rcases ht : d.terminal? with _ | body
  · rw [expandOn, ht, hasErrors_emptyReport] at clean
    cases clean
  · rcases hx : body.isExportList with _ | _
    · rw [expandOn_of_body ht hx] at clean ⊢
      rw [Journal.hasErrors_append, Bool.or_eq_false_iff] at clean
      exact exists_soleNode clean.2
    · simp [expandOn, ht, hx] at clean

/-- A document that is read without an error gives something. -/
lemma exists_product (clean : (d.product c used scope).2.hasErrors = false) :
    ∃ p, (d.product c used scope).1 = some p := by
  unfold product at clean ⊢
  split at clean
  · obtain ⟨table, ht⟩ := exists_exportsOn clean
    exact ⟨.table table, by simp [*]⟩
  · obtain ⟨node, hn⟩ := exists_expandOn clean
    exact ⟨.body node, by simp [*]⟩

/-- A document gives a table exactly if it ends in an export list. -/
lemma product_eq_some_iff :
    d.product c used scope = (some p, j) ↔
      (∃ table, p = .table table ∧ Linkage.endsInExports d = true ∧
        d.exportsOn c scope = (some table, j)) ∨
      ∃ node, p = .body node ∧ Linkage.endsInExports d = false ∧
        d.expandOn c used scope = (some node, j) := by
  rw [product]
  -- the end of the document decides which of the two it is, and the other one cannot be read
  by_cases exports : Linkage.endsInExports d = true
  · rw [if_pos exports, Prod.mk.injEq, Option.map_eq_some_iff]
    constructor
    · rintro ⟨⟨table, ht, rfl⟩, hj⟩
      exact .inl ⟨table, rfl, exports, Prod.ext ht hj⟩
    · rintro (⟨table, rfl, _, read⟩ | ⟨_, _, body, _⟩)
      · rw [read]
        exact ⟨⟨table, rfl, rfl⟩, rfl⟩
      · exact absurd exports (Bool.eq_false_iff.1 body)
  · rw [if_neg exports, Prod.mk.injEq, Option.map_eq_some_iff]
    constructor
    · rintro ⟨⟨node, hn, rfl⟩, hj⟩
      exact .inr ⟨node, rfl, Bool.eq_false_iff.2 exports, Prod.ext hn hj⟩
    · rintro (⟨_, _, exports', _⟩ | ⟨node, rfl, _, read⟩)
      · exact absurd exports' exports
      · rw [read]
        exact ⟨⟨node, rfl, rfl⟩, rfl⟩

/-- Exporting makes no call. -/
lemma calls_exportsOn : (d.exportsOn c scope).2.calls = [] := by
  unfold exportsOn
  split
  · rfl
  · split <;> simp

end Document

/-! ## Calls within the limit -/

/-- The limit on calls admits a number of calls in one run. -/
def Config.Admits (c : Config) (calls : Nat) : Prop :=
  ∀ i < calls, c.maxCalls.atMost i = false

section Expansions

variable {c : Config} {used used' : Nat} {d : Document} {scope : Scope} {v : Node} {j : Journal}

/-- A run has passed a check for each of its calls. -/
lemma Document.admitted_of_expandOn (h : d.expandOn c used scope = (some v, j)) {i : Nat}
    (hi : i < j.callCount) : c.maxCalls.atMost (used + i : Nat) = false := by
  obtain ⟨body, _, _, _, rfl⟩ := expandOn_eq_some_iff.1 h
  obtain ⟨_, run⟩ := d.exists_expands_body c used scope body
  have call : i < (d.bodyExpansion c used scope body).journal.calls.length := by
    simpa [Journal.callCount] using hi
  obtain ⟨_, _, _, check⟩ := passed_of_called run (List.getElem?_eq_some_iff.2 ⟨call, rfl⟩)
  exact (Config.exceededLimit_eq_none_iff.1 check).2

/-- After any number of calls a document expands alike, if the limit admits its own. -/
lemma Document.expandOn_after (h : d.expandOn c used scope = (some v, j))
    (clean : j.hasErrors = false)
    (admitted : ∀ i < j.callCount, c.maxCalls.atMost (used' + i : Nat) = false) :
    ∃ j', d.expandOn c used' scope = (some v, j') ∧ j.Agrees j' := by
  obtain ⟨body, ht, hx, nodes, rfl⟩ := expandOn_eq_some_iff.1 h
  rw [Journal.hasErrors_append, Bool.or_eq_false_iff] at clean
  obtain ⟨_, run⟩ := d.exists_expands_body c used scope body
  have agrees : (d.bodyExpansion c used scope body).Agrees
      (d.bodyExpansion c used' scope body) := by
    apply agrees_of_allowed run clean.2
    -- each call of the run passed its check on the depth, which does not change, and is admitted
    -- after the other number of calls
    intro depth i call _ hc _ check
    obtain ⟨shallow, _⟩ := Config.exceededLimit_eq_none_iff.1 check
    have made : i < (d.bodyExpansion c used scope body).journal.calls.length :=
      (List.getElem?_eq_some_iff.1 hc).1
    refine Config.exceededLimit_eq_none_iff.2 ⟨shallow, admitted i ?_⟩
    simpa [Journal.callCount] using made
  refine ⟨_, expandOn_eq_some_iff.2 ⟨body, ht, hx, agrees.nodes.symm.trans nodes, rfl⟩, ?_⟩
  exact (Journal.Agrees.refl _).append agrees.journal

end Expansions

/-! ## Units -/

/-- What a unit gives, by which calls, when it is read without an error after `used` calls of the
run and with some tables.  Nothing is said of the journal but its calls: what a file logs may depend
on how many calls came before. -/
structure LinkUnit.Gives (u : LinkUnit) (c : Config) (used : Nat) (outer : Scope)
    (tables : Keyed ExportTable) (p : Product) (calls : List Call) : Prop where
  resolved : (resolveOn c u.requests tables outer).2.hasErrors = false
  read : ∃ j, u.document.product c used (resolveOn c u.requests tables outer).1 = (some p, j) ∧
    j.hasErrors = false ∧ j.calls = calls

namespace LinkUnit.Gives

variable {u : LinkUnit} {c : Config} {used used' : Nat} {outer : Scope}
variable {tables tables' : Keyed ExportTable} {p : Product} {calls : List Call}

lemma congr (h : u.Gives c used outer tables p calls)
    (same : ∀ r ∈ u.requests, tables.get? r.file = tables'.get? r.file) :
    u.Gives c used outer tables' p calls := by
  have resolved : resolveOn c u.requests tables outer = resolveOn c u.requests tables' outer :=
    resolveOn_congr same
  exact ⟨by rw [← resolved]; exact h.resolved, by rw [← resolved]; exact h.read⟩

lemma admitted (h : u.Gives c used outer tables p calls) {i : Nat} (hi : i < calls.length) :
    c.maxCalls.atMost (used + i : Nat) = false := by
  obtain ⟨j, product, _, rfl⟩ := h.read
  rcases Document.product_eq_some_iff.1 product with ⟨table, _, _, read⟩ | ⟨node, _, _, read⟩
  · have calls : (u.document.exportsOn c (resolveOn c u.requests tables outer).1).2.calls = [] :=
      Document.calls_exportsOn
    rw [read] at calls
    rw [calls] at hi
    exact absurd hi (Nat.not_lt_zero i)
  · exact Document.admitted_of_expandOn read hi

/-- **A unit gives the same after any number of calls** to which the limit admits its own. -/
theorem after (h : u.Gives c used outer tables p calls)
    (admitted : ∀ i < calls.length, c.maxCalls.atMost (used' + i : Nat) = false) :
    u.Gives c used' outer tables p calls := by
  refine ⟨h.resolved, ?_⟩
  obtain ⟨j, product, clean, rfl⟩ := h.read
  rcases Document.product_eq_some_iff.1 product with
    ⟨table, rfl, exports, read⟩ | ⟨node, rfl, body, read⟩
  · exact ⟨j, Document.product_eq_some_iff.2 (.inl ⟨table, rfl, exports, read⟩), clean, rfl⟩
  · obtain ⟨j', read', agrees⟩ := Document.expandOn_after read clean admitted
    refine ⟨j', Document.product_eq_some_iff.2 (.inr ⟨node, rfl, body, read'⟩), ?_, ?_⟩
    · rw [← agrees.hasErrors_eq, clean]
    · exact agrees.calls.symm

end LinkUnit.Gives

end Stencil
