import Mathlib.Data.List.Nodup
import Mathlib.Data.List.Pairwise
import TypeCatalog.Proofs.Ownership
import TypeCatalog.Session.Listing

/-!
# The listing of the scopes

The listing follows every binding of every scope it comes to and never looks back at where it has
been. It still comes to an end and shows everything once, because the scopes form one tree.
-/

namespace TypeCatalog

theorem Member.eq_scope_of_scope? {m : Member} {id : ScopeId} (h : m.scope? = some id) :
    m = .scope id := by
  cases m with
  | scope child => rw [Option.some.inj h]
  | _ => cases h

/-- What one line of the listing is about. -/
inductive ListingItem where
  | scope (depth : Nat) (id : ScopeId) (s : Scope)
  | binding (depth : Nat) (scope : ScopeId) (name : String) (m : Member)

namespace ListingItem

def kindWord : ScopeKind → String
  | .namespace => "namespace"
  | .class => "class"
  | .struct => "struct"
  | .union => "union"
  | .enum => "enum"

def bindingWords (name : String) : Member → String
  | .type _ => "type " ++ name
  | .scope _ => "scope " ++ name
  | .enumerator _ value => name ++ " = " ++ toString value.toInt
  | .function _ _ => "function " ++ name
  | .dataMember _ _ _ => "data member " ++ name

/-- The text of the line: two blanks for each level, and then what is shown. The members of a scope
are one level further in than the scope. -/
def line : ListingItem → String
  | .scope depth _ s => String.ofList (List.replicate (2 * depth) ' ') ++
    (kindWord s.kind ++ " " ++ if s.qualified = "" then "::" else s.qualified)
  | .binding depth _ name m =>
    String.ofList (List.replicate (2 * (depth + 1)) ' ') ++ bindingWords name m

def scope? : ListingItem → Option ScopeId
  | .scope _ id _ => some id
  | .binding _ _ _ _ => none

def binding? : ListingItem → Option (ScopeId × String × Member)
  | .scope _ _ _ => none
  | .binding _ id name m => some (id, name, m)

/-- The scope that is shown, or that the binding is in. -/
def place : ListingItem → ScopeId
  | .scope _ id _ => id
  | .binding _ id _ _ => id

def depth : ListingItem → Nat
  | .scope depth _ _ => depth
  | .binding depth _ _ _ => depth

theorem line_scope (depth : Nat) (id : ScopeId) (s : Scope) :
    (scope depth id s).line = Session.scopeLine depth s := by
  have hkind : kindWord s.kind = s.kind.text := by cases s.kind <;> rfl
  rw [line, Session.scopeLine, Text.spaces, Name.display, hkind]
  simp only [String.append_assoc]

theorem line_binding (depth : Nat) (id : ScopeId) (name : String) (m : Member) :
    (binding depth id name m).line = Session.memberLine depth name m := by
  have hblanks : String.ofList (List.replicate (2 * (depth + 1)) ' ') =
      Text.spaces (2 * depth) ++ "  " := by
    rw [Text.spaces, Nat.mul_succ, List.replicate_add, String.ofList_append]
    rfl
  rw [line, hblanks]
  unfold Session.memberLine
  cases m <;> rfl

/-- What the item shows is there. -/
def Of (t : ScopeTree) : ListingItem → Prop
  | .scope _ id s => t.get? id = some s
  | .binding _ id name m => t.Binds id name m ∧ m.scope? = none

end ListingItem

namespace ScopeTree

mutual

/-- The listing of a scope in pre-order, as deep as the scopes go. -/
inductive Lists (t : ScopeTree) : Nat → ScopeId → List ListingItem → Prop
  | absent {depth : Nat} {id : ScopeId} (missing : t.get? id = none) : Lists t depth id []
  | scope {depth : Nat} {id : ScopeId} {s : Scope} {below : List ListingItem}
      (found : t.get? id = some s) (members : ListsMembers t depth id s.members.entries below) :
    Lists t depth id (.scope depth id s :: below)

/-- The listing of bindings in their order, each child scope in the place of its binding. -/
inductive ListsMembers (t : ScopeTree) :
    Nat → ScopeId → List (String × Member) → List ListingItem → Prop
  | nil {depth : Nat} {id : ScopeId} : ListsMembers t depth id [] []
  | child {depth : Nat} {id child : ScopeId} {name : String} {rest : List (String × Member)}
      {below more : List ListingItem} (listing : Lists t (depth + 1) child below)
      (others : ListsMembers t depth id rest more) :
    ListsMembers t depth id ((name, .scope child) :: rest) (below ++ more)
  | plain {depth : Nat} {id : ScopeId} {name : String} {m : Member}
      {rest : List (String × Member)} {more : List ListingItem} (plain : m.scope? = none)
      (others : ListsMembers t depth id rest more) :
    ListsMembers t depth id ((name, m) :: rest) (.binding depth id name m :: more)

end

/-! ## The listing as a function -/

/-- What stands for one binding when `list` gives the listings of the children. -/
def part (list : ScopeId → List ListingItem) (depth : Nat) (id : ScopeId) :
    String × Member → List ListingItem
  | (_, .scope child) => list child
  | (name, m) => [.binding depth id name m]

def listed (t : ScopeTree) : Nat → Nat → ScopeId → List ListingItem
  | 0, _, _ => []
  | levels + 1, depth, id =>
    match t.get? id with
    | none => []
    | some s =>
      .scope depth id s :: s.members.entries.flatMap (part (listed t levels (depth + 1)) depth id)

theorem part_plain (list : ScopeId → List ListingItem) (depth : Nat) (id : ScopeId) (name : String)
    {m : Member} (plain : m.scope? = none) :
    part list depth id (name, m) = [.binding depth id name m] := by
  cases m with
  | scope child => cases plain
  | _ => rfl

theorem listed_of_get? {t : ScopeTree} {id : ScopeId} {s : Scope} (hs : t.get? id = some s)
    (levels depth : Nat) :
    t.listed (levels + 1) depth id = .scope depth id s ::
      s.members.entries.flatMap (part (t.listed levels (depth + 1)) depth id) := by
  rw [listed, hs]

theorem scopeLines_eq (t : ScopeTree) (levels depth : Nat) (id : ScopeId) :
    Session.scopeLines t levels depth id = (t.listed levels depth id).map ListingItem.line := by
  induction levels generalizing depth id with
  | zero => rfl
  | succ levels ih =>
    unfold Session.scopeLines listed
    cases t.get? id with
    | none => rfl
    | some s =>
      rw [List.map_cons, ListingItem.line_scope, List.map_flatMap]
      refine congrArg (Session.scopeLine depth s :: ·) (List.flatMap_congr ?_)
      rintro ⟨name, m⟩ -
      cases m with
      | scope child => exact ih _ _
      | _ => exact congrArg ([·]) (ListingItem.line_binding depth id name _).symm

namespace WellFormed

variable {t : ScopeTree} (wf : t.WellFormed)

include wf

theorem ne_global {id p : ScopeId} {s : Scope} (hs : t.get? id = some s)
    (hparent : s.parent = some p) : id ≠ .global := by
  intro hglobal
  rw [(wf.orphan_iff hs).2 hglobal] at hparent
  cases hparent

theorem later_of_mem {id : ScopeId} {s : Scope} (hs : t.get? id = some s) {name : String}
    {child : ScopeId} (h : (name, Member.scope child) ∈ s.members.entries) :
    ∃ c, t.get? child = some c ∧ c.parent = some id ∧ c.name = name ∧ id.index < child.index := by
  obtain ⟨c, hc, hparent, hname⟩ := wf.bound hs (Table.get?_of_mem_entries (wf.distinct hs) h)
  obtain ⟨p, ps, ho⟩ := wf.owned hc (wf.ne_global hc hparent)
  obtain rfl : p = id := Option.some.inj (ho.parent.symm.trans hparent)
  exact ⟨c, hc, hparent, hname, ho.before⟩

theorem mem_of_parent {id child : ScopeId} {s c : Scope} (hs : t.get? id = some s)
    (hc : t.get? child = some c) (hparent : c.parent = some id) :
    (c.name, Member.scope child) ∈ s.members.entries := by
  obtain ⟨p, ps, ho⟩ := wf.owned hc (wf.ne_global hc hparent)
  obtain rfl : p = id := Option.some.inj (ho.parent.symm.trans hparent)
  obtain rfl : ps = s := Option.some.inj (ho.found.symm.trans hs)
  exact Table.mem_entries_of_get? ho.binds

/-! ## The listing ends -/

theorem lists_listed {levels depth : Nat} {id : ScopeId} (enough : t.size ≤ levels + id.index) :
    t.Lists depth id (t.listed levels depth id) := by
  induction levels generalizing depth id with
  | zero =>
    refine .absent ?_
    simp only [get?, size] at *
    exact List.getElem?_eq_none (by omega)
  | succ levels ih =>
    cases hs : t.get? id with
    | none =>
      rw [listed, hs]
      exact .absent hs
    | some s =>
      rw [listed_of_get? hs]
      refine .scope hs ?_
      have hchildren : ∀ name child, (name, Member.scope child) ∈ s.members.entries →
          t.Lists (depth + 1) child (t.listed levels (depth + 1) child) := by
        intro name child h
        obtain ⟨c, -, -, -, hlater⟩ := wf.later_of_mem hs h
        exact ih (by omega)
      generalize s.members.entries = entries at hchildren
      induction entries with
      | nil => exact .nil
      | cons entry rest ih' =>
        obtain ⟨name, m⟩ := entry
        have hrest := ih' fun name child h => hchildren name child (List.mem_cons_of_mem _ h)
        rw [List.flatMap_cons]
        cases hm : m.scope? with
        | none =>
          rw [part_plain _ _ _ _ hm]
          exact .plain hm hrest
        | some child =>
          obtain rfl := Member.eq_scope_of_scope? hm
          exact .child (hchildren name child (by simp)) hrest

theorem eq_listed {levels depth : Nat} {id : ScopeId} {items : List ListingItem}
    (enough : t.size ≤ levels + id.index) (h : t.Lists depth id items) :
    items = t.listed levels depth id := by
  induction levels generalizing depth id items with
  | zero =>
    cases h with
    | absent => rfl
    | scope found =>
      have := get?_lt found
      omega
  | succ levels ih =>
    cases h with
    | absent missing => rw [listed, missing]
    | @scope _ _ s below found members =>
      rw [listed_of_get? found]
      have hchildren : ∀ name child, (name, Member.scope child) ∈ s.members.entries →
          ∀ {items}, t.Lists (depth + 1) child items →
            items = t.listed levels (depth + 1) child := by
        intro name child h items hitems
        obtain ⟨c, -, -, -, hlater⟩ := wf.later_of_mem found h
        exact ih (by omega) hitems
      congr 1
      generalize s.members.entries = entries at members hchildren
      induction entries generalizing below with
      | nil => cases members; rfl
      | cons entry rest ih' =>
        have hrest := fun {items} h => @ih' items h fun name child h =>
          hchildren name child (List.mem_cons_of_mem _ h)
        rw [List.flatMap_cons]
        cases members with
        | child listing others =>
          rw [hchildren _ _ List.mem_cons_self listing, hrest others]
          rfl
        | plain plain others =>
          rw [part_plain _ _ _ _ plain, hrest others]
          rfl

end WellFormed

/-! ## The listing covers a subtree -/

/-- The scope is in the subtree of `top`, and has the second depth if `top` has the first. -/
inductive Under (t : ScopeTree) (top : ScopeId) (depth : Nat) : ScopeId → Nat → Prop
  | here : Under t top depth top depth
  | child {id p : ScopeId} {s : Scope} {n : Nat} (found : t.get? id = some s)
      (parent : s.parent = some p) (under : Under t top depth p n) : Under t top depth id (n + 1)

namespace Under

variable {t : ScopeTree} {top child id : ScopeId} {depth n : Nat}

theorem le (h : t.Under top depth id n) : depth ≤ n := by
  induction h with
  | here => exact Nat.le_refl _
  | child _ _ _ ih => omega

theorem up {c : Scope} (hc : t.get? child = some c) (hparent : c.parent = some top)
    (h : t.Under child (depth + 1) id n) : t.Under top depth id n := by
  induction h with
  | here => exact .child hc hparent .here
  | child found parent _ ih => exact .child found parent ih

theorem down (h : t.Under top depth id n) :
    id = top ∧ n = depth ∨ ∃ child c, t.get? child = some c ∧ c.parent = some top ∧
      t.Under child (depth + 1) id n := by
  induction h with
  | here => exact .inl ⟨rfl, rfl⟩
  | @child id p s n found parent _ ih =>
    right
    rcases ih with ⟨rfl, rfl⟩ | ⟨child, c, hc, hparent, hunder⟩
    · exact ⟨id, s, found, parent, .here⟩
    · exact ⟨child, c, hc, hparent, .child found parent hunder⟩

theorem top_unique {other : ScopeId} (h : t.Under top depth id n) (h' : t.Under other depth id n) :
    top = other := by
  induction h with
  | here =>
    cases h' with
    | here => rfl
    | child _ _ under =>
      have := under.le
      omega
  | child found parent under ih =>
    cases h' with
    | here =>
      have := under.le
      omega
    | child found' parent' under' =>
      obtain rfl := Option.some.inj (found.symm.trans found')
      obtain rfl := Option.some.inj (parent.symm.trans parent')
      exact ih under'

theorem depth_unique (wf : t.WellFormed) {n' : Nat} (h : t.Under .global depth id n)
    (h' : t.Under .global depth id n') : n = n' := by
  induction h generalizing n' with
  | here =>
    cases h' with
    | here => rfl
    | child found parent _ => exact absurd rfl (wf.ne_global found parent)
  | child found parent _ ih =>
    cases h' with
    | here => exact absurd rfl (wf.ne_global found parent)
    | child found' parent' under' =>
      obtain rfl := Option.some.inj (found.symm.trans found')
      obtain rfl := Option.some.inj (parent.symm.trans parent')
      rw [ih under']

theorem of_rooted (h : t.Rooted id) : ∃ n, t.Under .global depth id n := by
  induction h with
  | global => exact ⟨depth, .here⟩
  | child found parent _ ih =>
    obtain ⟨n, hn⟩ := ih
    exact ⟨n + 1, .child found parent hn⟩

end Under

namespace WellFormed

variable {t : ScopeTree} (wf : t.WellFormed) {levels depth : Nat} {top : ScopeId} {s : Scope}

include wf

theorem mem_listed (hs : t.get? top = some s) (enough : t.size ≤ levels + top.index)
    {item : ListingItem} :
    item ∈ t.listed levels depth top ↔ item.Of t ∧ t.Under top depth item.place item.depth := by
  induction levels generalizing depth top s with
  | zero =>
    have := get?_lt hs
    omega
  | succ levels ih =>
    have hbinds : t.members? top = some s.members.entries := by rw [members?, hs]; rfl
    have hchild : ∀ {name child}, (name, Member.scope child) ∈ s.members.entries →
        (item ∈ t.listed levels (depth + 1) child ↔
          item.Of t ∧ t.Under child (depth + 1) item.place item.depth) := by
      intro name child h
      obtain ⟨c, hc, -, -, hlater⟩ := wf.later_of_mem hs h
      exact ih hc (by omega)
    rw [listed_of_get? hs, List.mem_cons, List.mem_flatMap]
    constructor
    · rintro (rfl | ⟨⟨name, m⟩, hm, hitem⟩)
      · exact ⟨hs, .here⟩
      · cases hscope : m.scope? with
        | none =>
          rw [part_plain _ _ _ _ hscope, List.mem_singleton] at hitem
          subst hitem
          exact ⟨⟨⟨_, hbinds, hm⟩, hscope⟩, .here⟩
        | some child =>
          obtain rfl := Member.eq_scope_of_scope? hscope
          obtain ⟨c, hc, hparent, -, -⟩ := wf.later_of_mem hs hm
          obtain ⟨hof, hunder⟩ := (hchild hm).1 hitem
          exact ⟨hof, hunder.up hc hparent⟩
    · rintro ⟨hof, hunder⟩
      rcases hunder.down with ⟨hplace, hdepth⟩ | ⟨child, c, hc, hparent, hunder⟩
      · cases item with
        | scope d id s' =>
          obtain rfl : id = top := hplace
          obtain rfl : d = depth := hdepth
          left
          rw [Option.some.inj (hs.symm.trans hof)]
        | binding d scope name m =>
          obtain rfl : scope = top := hplace
          obtain rfl : d = depth := hdepth
          obtain ⟨⟨bindings, hbindings, hmem⟩, hplain⟩ := hof
          obtain rfl := Option.some.inj (hbinds.symm.trans hbindings)
          refine .inr ⟨(name, m), hmem, ?_⟩
          rw [part_plain _ _ _ _ hplain]
          exact List.mem_singleton_self _
      · have hmem := wf.mem_of_parent hs hc hparent
        exact .inr ⟨_, hmem, (hchild hmem).2 ⟨hof, hunder⟩⟩

theorem of_mem_part (hs : t.get? top = some s) (enough : t.size ≤ levels + 1 + top.index)
    {item : ListingItem} {name : String} {m : Member} (hm : (name, m) ∈ s.members.entries)
    (h : item ∈ part (t.listed levels (depth + 1)) depth top (name, m)) :
    item = .binding depth top name m ∨ ∃ child c, t.get? child = some c ∧ c.name = name ∧
      t.Under child (depth + 1) item.place item.depth := by
  cases hscope : m.scope? with
  | none =>
    rw [part_plain _ _ _ _ hscope, List.mem_singleton] at h
    exact .inl h
  | some child =>
    obtain rfl := Member.eq_scope_of_scope? hscope
    obtain ⟨c, hc, -, hname, hlater⟩ := wf.later_of_mem hs hm
    exact .inr ⟨child, c, hc, hname, ((wf.mem_listed hc (by omega)).1 h).2⟩

theorem nodup_listed (enough : t.size ≤ levels + top.index) :
    (t.listed levels depth top).Nodup := by
  induction levels generalizing depth top with
  | zero => exact List.nodup_nil
  | succ levels ih =>
    cases hs : t.get? top with
    | none =>
      rw [listed, hs]
      exact List.nodup_nil
    | some s =>
      rw [listed_of_get? hs, List.nodup_cons, List.nodup_flatMap]
      refine ⟨?_, ?_, ?_⟩
      · intro hmem
        obtain ⟨⟨name, m⟩, hm, hitem⟩ := List.mem_flatMap.1 hmem
        rcases wf.of_mem_part hs enough hm hitem with h | ⟨child, c, -, -, hunder⟩
        · cases h
        · exact absurd hunder.le (Nat.not_succ_le_self depth)
      · rintro ⟨name, m⟩ hm
        cases hscope : m.scope? with
        | none =>
          rw [part_plain _ _ _ _ hscope]
          exact List.nodup_singleton _
        | some child =>
          obtain rfl := Member.eq_scope_of_scope? hscope
          obtain ⟨c, -, -, -, hlater⟩ := wf.later_of_mem hs hm
          exact ih (by omega)
      · have hdistinct : s.members.entries.Pairwise fun e e' => e.1 ≠ e'.1 :=
          List.pairwise_map.1 (wf.distinct hs)
        refine hdistinct.imp_of_mem ?_
        rintro ⟨name, m⟩ ⟨name', m'⟩ hm hm' hne item hitem hitem'
        rcases wf.of_mem_part hs enough hm hitem with rfl | ⟨child, c, hc, rfl, hunder⟩
        · rcases wf.of_mem_part hs enough hm' hitem' with h | ⟨child', c', -, -, hunder'⟩
          · cases h
            exact hne rfl
          · exact absurd hunder'.le (Nat.not_succ_le_self depth)
        · rcases wf.of_mem_part hs enough hm' hitem' with rfl | ⟨child', c', hc', rfl, hunder'⟩
          · exact absurd hunder.le (Nat.not_succ_le_self depth)
          · obtain rfl := hunder.top_unique hunder'
            obtain rfl := Option.some.inj (hc.symm.trans hc')
            exact hne rfl

end WellFormed

/-! ## The whole tree -/

/-- The items are the listing from the global scope on. They show every scope once and every other
binding once, each scope one level further in than its parent. -/
structure ListedBy (t : ScopeTree) (items : List ListingItem) : Prop where
  traversed : t.Lists 1 .global items
  only : ∀ {items'}, t.Lists 1 .global items' → items' = items
  scopesOnce : (items.filterMap ListingItem.scope?).Nodup
  scopes : ∀ {id}, id ∈ items.filterMap ListingItem.scope? ↔ t.contains id
  bindingsOnce : (items.filterMap ListingItem.binding?).Nodup
  bindings : ∀ {scope name m}, (scope, name, m) ∈ items.filterMap ListingItem.binding? ↔
    t.Binds scope name m ∧ m.scope? = none
  indented : ∀ {depth id s}, .scope depth id s ∈ items → id = .global ∧ depth = 1 ∨
    ∃ p ps above, s.parent = some p ∧ .scope above p ps ∈ items ∧ depth = above + 1
  aligned : ∀ {depth scope name m}, .binding depth scope name m ∈ items →
    ∃ s, .scope depth scope s ∈ items

/-- The items are those of the whole tree, each of them once. -/
structure Covers (t : ScopeTree) (items : List ListingItem) : Prop where
  mem : ∀ {item : ListingItem}, item ∈ items ↔
    item.Of t ∧ t.Under .global 1 item.place item.depth
  nodup : items.Nodup

namespace Covers

variable {t : ScopeTree} {items : List ListingItem} (wf : t.WellFormed) (covers : t.Covers items)

include wf covers

theorem mem_scope {id : ScopeId} {s : Scope} (hs : t.get? id = some s) :
    ∃ depth, .scope depth id s ∈ items := by
  obtain ⟨depth, hunder⟩ := Under.of_rooted (wf.rooted _ hs)
  exact ⟨depth, covers.mem.2 ⟨hs, hunder⟩⟩

theorem scope_once {item item' : ListingItem} (h : item ∈ items) (h' : item' ∈ items)
    {id : ScopeId} (hid : item.scope? = some id) (hid' : item'.scope? = some id) :
    item = item' := by
  cases item with
  | binding => cases hid
  | scope depth i s =>
    cases item' with
    | binding => cases hid'
    | scope depth' i' s' =>
      obtain rfl : i = id := Option.some.inj hid
      obtain rfl : i' = i := Option.some.inj hid'
      obtain ⟨hs, hunder⟩ := covers.mem.1 h
      obtain ⟨hs', hunder'⟩ := covers.mem.1 h'
      obtain rfl := Option.some.inj (Eq.trans (Eq.symm hs) hs')
      obtain rfl : depth = depth' := hunder.depth_unique wf hunder'
      rfl

theorem binding_once {item item' : ListingItem} (h : item ∈ items) (h' : item' ∈ items)
    {b : ScopeId × String × Member} (hb : item.binding? = some b)
    (hb' : item'.binding? = some b) : item = item' := by
  cases item with
  | scope => cases hb
  | binding depth scope name m =>
    cases item' with
    | scope => cases hb'
    | binding depth' scope' name' m' =>
      cases hb
      cases hb'
      obtain rfl : depth = depth' :=
        (covers.mem.1 h).2.depth_unique wf (covers.mem.1 h').2
      rfl

theorem mem_scopes {id : ScopeId} :
    id ∈ items.filterMap ListingItem.scope? ↔ t.contains id := by
  rw [List.mem_filterMap, contains, Option.isSome_iff_exists]
  constructor
  · rintro ⟨item, hitem, hid⟩
    cases item with
    | binding => cases hid
    | scope depth i s =>
      obtain rfl : i = id := Option.some.inj hid
      exact ⟨s, (covers.mem.1 hitem).1⟩
  · rintro ⟨s, hs⟩
    obtain ⟨depth, hmem⟩ := covers.mem_scope wf hs
    exact ⟨.scope depth id s, hmem, rfl⟩

theorem mem_bindings {scope : ScopeId} {name : String} {m : Member} :
    (scope, name, m) ∈ items.filterMap ListingItem.binding? ↔
      t.Binds scope name m ∧ m.scope? = none := by
  rw [List.mem_filterMap]
  constructor
  · rintro ⟨item, hitem, hb⟩
    cases item with
    | scope => cases hb
    | binding depth scope' name' m' =>
      cases hb
      exact (covers.mem.1 hitem).1
  · rintro ⟨hbinds, hplain⟩
    obtain ⟨bindings, hbindings, -⟩ := id hbinds
    obtain ⟨s, hs, -⟩ := Option.map_eq_some_iff.1 hbindings
    obtain ⟨depth, hunder⟩ := Under.of_rooted (wf.rooted _ hs)
    exact ⟨.binding depth scope name m, covers.mem.2 ⟨⟨hbinds, hplain⟩, hunder⟩, rfl⟩

theorem parent_above {depth : Nat} {id : ScopeId} {s : Scope}
    (hitem : .scope depth id s ∈ items) : id = .global ∧ depth = 1 ∨
      ∃ p ps above, s.parent = some p ∧ .scope above p ps ∈ items ∧ depth = above + 1 := by
  obtain ⟨hs, hunder⟩ := covers.mem.1 hitem
  cases hunder with
  | here => exact .inl ⟨rfl, rfl⟩
  | @child _ p s' above found parent under =>
    obtain rfl := Option.some.inj (Eq.trans (Eq.symm hs) found)
    obtain ⟨p', ps, ho⟩ := wf.owned hs (wf.ne_global hs parent)
    obtain rfl : p' = p := Option.some.inj (ho.parent.symm.trans parent)
    exact .inr ⟨p', ps, above, parent, covers.mem.2 ⟨ho.found, under⟩, rfl⟩

end Covers

theorem WellFormed.listedBy {t : ScopeTree} (wf : t.WellFormed) :
    t.ListedBy (t.listed t.size 1 .global) := by
  have enough : t.size ≤ t.size + ScopeId.global.index := Nat.le_add_right _ _
  obtain ⟨root, hroot, -, -⟩ := wf.root
  have covers : t.Covers (t.listed t.size 1 .global) :=
    ⟨wf.mem_listed hroot enough, wf.nodup_listed enough⟩
  refine
    { traversed := wf.lists_listed enough
      only := wf.eq_listed enough
      scopesOnce := ?_
      scopes := covers.mem_scopes wf
      bindingsOnce := ?_
      bindings := covers.mem_bindings wf
      indented := covers.parent_above wf
      aligned := ?_ }
  · refine List.pairwise_filterMap.2 (covers.nodup.imp_of_mem ?_)
    rintro item item' hitem hitem' hne id hid id' hid' rfl
    exact hne (covers.scope_once wf hitem hitem' hid hid')
  · refine List.pairwise_filterMap.2 (covers.nodup.imp_of_mem ?_)
    rintro item item' hitem hitem' hne b hb b' hb' rfl
    exact hne (covers.binding_once wf hitem hitem' hb hb')
  · intro depth scope name m hitem
    obtain ⟨⟨⟨bindings, hbindings, -⟩, -⟩, hunder⟩ := covers.mem.1 hitem
    obtain ⟨s, hs, -⟩ := Option.map_eq_some_iff.1 hbindings
    exact ⟨s, covers.mem.2 ⟨hs, hunder⟩⟩

end ScopeTree

namespace Hub

/-- Whatever was done to the catalog, the listing of its scopes comes to an end and covers the tree
exactly. The bound on the levels does not show. -/
theorem listing_covers_tree (settings : CatalogSettings) (ops : List Operation) :
    let t := ((ofSettings settings).run ops).catalog.scopes
    ∃ items, t.ListedBy items ∧
      ∀ levels, t.size ≤ levels →
        Session.scopeLines t levels 1 .global = items.map ListingItem.line := by
  intro t
  have wf : t.WellFormed := (run_wellFormed _ (Catalog.empty_wellFormed settings) ops).scopes
  refine ⟨t.listed t.size 1 .global, wf.listedBy, ?_⟩
  intro levels enough
  have hlists : t.Lists 1 .global (t.listed levels 1 .global) := wf.lists_listed enough
  rw [ScopeTree.scopeLines_eq, wf.listedBy.only hlists]

/-- An enum in a class in a namespace. -/
def nested : List Operation :=
  [.buildFundamental "int" 4, .declareScope .global "a" .namespace,
    .declareClass ⟨1⟩ "C" (.named "a::C") .class 8,
    .buildEnum ⟨2⟩ "Mode" (.named "a::C::Mode") "int",
    .addEnumerator ⟨⟨⟨2⟩, .named "a::C::Mode", .enum, 4, "a::C::Mode"⟩, ⟨3⟩, ⟨0⟩⟩ "fast" (-3),
    .addMember ⟨2⟩ "first" (.dataMember ⟨0⟩ 4 .none), .declareScope .global "b" .struct]

/-- The whole text, and nothing is missing from it. -/
theorem nested_is_listed :
    ∃ items, ((ofSettings Settings.default.catalog).run nested).catalog.scopes.ListedBy items ∧
      items.map ListingItem.line =
        ["  namespace ::", "    type int", "    namespace a", "      class a::C",
          "        enum a::C::Mode", "          fast = -3", "        data member first",
          "    struct b"] := by
  obtain ⟨items, hlisted, hlines⟩ := listing_covers_tree Settings.default.catalog nested
  refine ⟨items, hlisted, ?_⟩
  rw [← hlines _ (Nat.le_refl _)]
  decide +kernel

end Hub

end TypeCatalog
