import Mathlib.Tactic.Lemma
import Stencil.Tree.Basic

/-!
# The names and the strings of a tree

A tree is made of two kinds of words: the names of its nodes, and the strings among the values of
its entries.  Names are what an expansion looks up to find calls; strings can become names, since
a bound string renames the node that bears the name it is bound to.  The names of properties are
neither.
-/

namespace Stencil

/-- The strings among the values of some entries. -/
def Entry.strings (entries : List Entry) : List String :=
  entries.filterMap fun e => e.value.inner.string?

namespace Node

/-- A node without arguments, from no file. -/
def bare (name : String) (children : List Node) : Node :=
  ⟨⟨name, .none⟩, [], children, .none⟩

/-- A node whose one argument is a name, from no file. -/
def naming (name target : String) : Node :=
  ⟨⟨name, .none⟩, [⟨none, ⟨.string target, .none⟩, .none⟩], [], .none⟩

/-! ## Names and strings -/

mutual

/-- The names of the nodes of a tree. -/
def names : Node → List String
  | ⟨name, _, children, _⟩ => name.inner :: namesAll children

/-- The names of the nodes of a list of trees. -/
def namesAll : List Node → List String
  | [] => []
  | n :: rest => n.names ++ namesAll rest

end

mutual

/-- The strings of a tree. -/
def strings : Node → List String
  | ⟨_, entries, children, _⟩ => Entry.strings entries ++ stringsAll children

/-- The strings of a list of trees. -/
def stringsAll : List Node → List String
  | [] => []
  | n :: rest => n.strings ++ stringsAll rest

end

lemma names_eq (n : Node) : n.names = n.name.inner :: namesAll n.children := by
  cases n
  rw [names]

lemma strings_eq (n : Node) : n.strings = Entry.strings n.entries ++ stringsAll n.children := by
  cases n
  rw [strings]

@[simp] lemma namesAll_nil : namesAll [] = [] := by
  rw [namesAll]

@[simp] lemma namesAll_cons (n : Node) (rest : List Node) :
    namesAll (n :: rest) = n.names ++ namesAll rest := by
  rw [namesAll]

@[simp] lemma stringsAll_nil : stringsAll [] = [] := by
  rw [stringsAll]

@[simp] lemma stringsAll_cons (n : Node) (rest : List Node) :
    stringsAll (n :: rest) = n.strings ++ stringsAll rest := by
  rw [stringsAll]

@[simp] lemma namesAll_append (a b : List Node) : namesAll (a ++ b) = namesAll a ++ namesAll b := by
  induction a with
  | nil => simp
  | cons n rest ih => simp [ih]

variable {n : Node} {nodes : List Node}

/-- The names of a node are among those of any list that it is in. -/
lemma names_subset_namesAll (h : n ∈ nodes) : n.names ⊆ namesAll nodes := by
  induction nodes with
  | nil => exact absurd h List.not_mem_nil
  | cons first rest ih =>
    rw [namesAll_cons]
    rcases List.mem_cons.1 h with rfl | h
    · exact List.subset_append_left _ _
    · exact List.subset_append_of_subset_right _ (ih h)

/-- Its strings are among those of the list. -/
lemma strings_subset_stringsAll (h : n ∈ nodes) : n.strings ⊆ stringsAll nodes := by
  induction nodes with
  | nil => exact absurd h List.not_mem_nil
  | cons first rest ih =>
    rw [stringsAll_cons]
    rcases List.mem_cons.1 h with rfl | h
    · exact List.subset_append_left _ _
    · exact List.subset_append_of_subset_right _ (ih h)

/-- More nodes have more strings. -/
lemma stringsAll_mono {more : List Node} (h : nodes ⊆ more) :
    stringsAll nodes ⊆ stringsAll more := by
  induction nodes with
  | nil => simp
  | cons first rest ih =>
    obtain ⟨mem, inside⟩ := List.cons_subset.1 h
    rw [stringsAll_cons]
    exact List.append_subset.2 ⟨strings_subset_stringsAll mem, ih inside⟩

/-- The names of the children are among those of the node. -/
lemma children_subset_names (n : Node) : namesAll n.children ⊆ n.names := by
  rw [names_eq]
  exact List.subset_cons_self _ _

/-- The strings of the entries are among those of the node. -/
lemma entries_subset_strings (n : Node) : Entry.strings n.entries ⊆ n.strings := by
  rw [strings_eq]
  exact List.subset_append_left _ _

/-- The strings of the children are among those of the node. -/
lemma children_subset_strings (n : Node) : stringsAll n.children ⊆ n.strings := by
  rw [strings_eq]
  exact List.subset_append_right _ _

end Node

/-- The string that an entry has for its value is one of the strings of the entries. -/
lemma Entry.mem_strings {entries : List Entry} {e : Entry} {s : String} (h : e ∈ entries)
    (value : e.value.inner = .string s) : s ∈ Entry.strings entries :=
  List.mem_filterMap.2 ⟨e, h, by rw [value, Scalar.string?]⟩

/-- The sole string of a node is one of its strings. -/
lemma Node.mem_strings_of_soleString? {n : Node} {target : Spanned String}
    (sole : n.soleString? = some target) : target.inner ∈ Entry.strings n.entries := by
  unfold soleString? at sole
  split at sole
  · next entries =>
    obtain rfl := Option.some.inj sole
    rw [entries]
    exact List.mem_cons_self
  · cases sole

end Stencil
