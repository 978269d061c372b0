import GraphClient.CacheKey.Ancestry

/-!
# Chains of ancestors

The ancestors of an entity are found by going from parent to parent. Every entity that is met is
new, and it has a parent of its own if the walk goes on, so the walk ends on every map of parents,
also where parents go around in a circle that does not come back to the start. An explicit list of
ancestors takes the place of the walk, and to spell out what the walk finds changes nothing.

* `Ancestry.Linked` : every ancestor of a chain is the parent of the entity before it.
* `Ancestry.Climb` : a chain goes from parent to parent until it cannot go on.
* `Ancestry.climb_of` : the ancestors of an entity without an explicit list are such a chain.
* `Ancestry.of_wellLinked` : what is known of the ancestors of an entity.
-/

namespace GraphClient

/-- The ancestor that the parentage of an entity leads to. -/
def Parentage.link (parentage : Parentage) : Ancestor := ⟨parentage.parent, parentage.foreignKey⟩

namespace Ancestry

variable {parents parents' : Keyed Parentage}

/-- Every ancestor of a chain is the configured parent of the entity before it, with the foreign key
of that entity. -/
def Linked (parents : Keyed Parentage) : String → List Ancestor → Prop
  | _, [] => True
  | child, ancestor :: rest =>
    (parents.find? child).map Parentage.link = some ancestor ∧ Linked parents ancestor.entity rest

/-- The last entity of a chain that starts at an entity. -/
def top : String → List Ancestor → String
  | entity, [] => entity
  | _, ancestor :: rest => top ancestor.entity rest

/-- Only the parent and the foreign key of an entity count for the links. -/
theorem Linked.congr
    (h : ∀ name, (parents.find? name).map Parentage.link =
      (parents'.find? name).map Parentage.link) {child : String} {chain : List Ancestor}
    (linked : Linked parents child chain) : Linked parents' child chain := by
  induction chain generalizing child with
  | nil => trivial
  | cons ancestor rest ih => exact ⟨(h child).symm.trans linked.1, ih linked.2⟩

/-- The links stay as they are if a parentage is replaced by one with the same link. -/
theorem map_link_find?_insert {entity : String} {parentage parentage' : Parentage}
    (hfind : parents.find? entity = some parentage) (hlink : parentage'.link = parentage.link)
    (name : String) : ((parents.insert entity parentage').find? name).map Parentage.link =
      (parents.find? name).map Parentage.link := by
  rw [Keyed.find?_insert]
  split
  · next heq => rw [← heq, hfind, Option.map_some, Option.map_some, hlink]
  · rfl

/-! ## The walk -/

/-- From an entity on, where some entities have been met, a chain goes from parent to parent. It
ends at an entity without a parent, or with a parent that has been met. -/
inductive Climb (parents : Keyed Parentage) : List String → String → List Ancestor → Prop
  | root {visited : List String} {child : String} (noParent : parents.find? child = none) :
      Climb parents visited child []
  | met {visited : List String} {child : String} {parentage : Parentage}
      (isChild : parents.find? child = some parentage) (known : parentage.parent ∈ visited) :
      Climb parents visited child []
  | up {visited : List String} {child : String} {parentage : Parentage} {chain : List Ancestor}
      (isChild : parents.find? child = some parentage) (fresh : parentage.parent ∉ visited)
      (rest : Climb parents (parentage.parent :: visited) parentage.parent chain) :
      Climb parents visited child (parentage.link :: chain)

/-- The walk climbs as far as there are parents: the entities that were met are distinct ones with a
parent, so the steps do not run out. By induction on the steps. -/
theorem climb_walk {steps : Nat} {visited : List String} {child : String} {current : Parentage}
    (isChild : parents.find? child = some current) (nodup : visited.Nodup)
    (subset : visited ⊆ parents.keys) (hsteps : parents.size < steps + visited.length) :
    Climb parents visited child (walk parents steps visited current) := by
  induction steps generalizing visited child current with
  | zero =>
    -- More entities would have been met than the map has.
    have hle := Keyed.length_le_size nodup subset
    omega
  | succ steps ih =>
    rw [walk]
    split
    · next known => exact .met isChild (by simpa using known)
    · next fresh =>
      have fresh : current.parent ∉ visited := by simpa using fresh
      refine .up isChild fresh ?_
      cases hnext : parents.find? current.parent with
      | none => exact .root hnext
      | some next =>
        have hmem := Keyed.mem_keys_of_find? hnext
        refine ih hnext (List.nodup_cons.2 ⟨fresh, nodup⟩) (List.cons_subset.2 ⟨hmem, subset⟩) ?_
        rw [List.length_cons]
        omega

/-- Without an explicit list, the ancestors are those of the climb from the entity. -/
theorem climb_of {entity : String} (h : (parents.find? entity).bind (·.ancestors) = none) :
    Climb parents [entity] entity (of parents entity) := by
  unfold of
  cases hfind : parents.find? entity with
  | none => exact .root hfind
  | some parentage =>
    have hwalked : parentage.ancestors = none := by simpa [hfind] using h
    simp only [hwalked]
    refine climb_walk hfind (List.pairwise_singleton _ _) ?_ (Nat.lt_succ_self _)
    exact List.cons_subset.2 ⟨Keyed.mem_keys_of_find? hfind, List.nil_subset _⟩

namespace Climb

variable {visited : List String} {child : String} {chain : List Ancestor}

/-- In a climb each ancestor is the parent of the one before it. -/
theorem linked (h : Climb parents visited child chain) : Linked parents child chain := by
  induction h with
  | root => trivial
  | met => trivial
  | up isChild _ _ ih => exact ⟨by rw [isChild]; rfl, ih⟩

/-- No entity of a chain has been met before. -/
theorem fresh (h : Climb parents visited child chain) :
    ∀ name ∈ chain.map (·.entity), name ∉ visited := by
  induction h with
  | root => simp
  | met => simp
  | up _ fresh _ ih =>
    rw [List.map_cons, List.forall_mem_cons]
    exact ⟨fresh, fun name hname hvisited => ih name hname (List.mem_cons_of_mem _ hvisited)⟩

/-- No ancestor is met twice in a climb. -/
theorem nodup (h : Climb parents visited child chain) : (chain.map (·.entity)).Nodup := by
  induction h with
  | root => exact List.nodup_nil
  | met => exact List.nodup_nil
  | up _ _ rest ih =>
    rw [List.map_cons, List.nodup_cons]
    exact ⟨fun hmem => rest.fresh _ hmem List.mem_cons_self, ih⟩

/-- The last entity of a chain has no parent, or its parent is among the entities that were met
before or on the way. -/
theorem stops (h : Climb parents visited child chain) :
    parents.find? (top child chain) = none ∨
      ∃ parentage, parents.find? (top child chain) = some parentage ∧
        (parentage.parent ∈ visited ∨ parentage.parent ∈ chain.map (·.entity)) := by
  induction h with
  | root noParent => exact .inl noParent
  | met isChild known => exact .inr ⟨_, isChild, .inl known⟩
  | up _ _ _ ih =>
    refine ih.imp_right fun ⟨last, hlast, hparent⟩ => ⟨last, hlast, ?_⟩
    simp only [List.mem_cons, List.map_cons] at hparent ⊢
    rcases hparent with (heq | hvisited) | hmem
    · exact .inr (.inl heq)
    · exact .inl hvisited
    · exact .inr (.inr hmem)

end Climb

/-! ## Explicit lists -/

/-- An explicit list is taken as it is. -/
theorem map_entity_spelledOut (child : String) (explicit : List String) :
    (spelledOut parents child explicit).map (·.entity) = explicit := by
  induction explicit generalizing child with
  | nil => rfl
  | cons name rest ih => rw [spelledOut, List.map_cons, ih]

/-- The foreign key of the configured parent is the configured one. -/
theorem foreignKey_of_link {child : String} {ancestor : Ancestor}
    (h : (parents.find? child).map Parentage.link = some ancestor) :
    foreignKey parents child ancestor.entity = ancestor.foreignKey := by
  obtain ⟨parentage, hfind, rfl⟩ := Option.map_eq_some_iff.1 h
  rw [foreignKey, hfind]
  exact if_pos rfl

/-- To spell out the entities of a linked chain gives the chain. -/
theorem spelledOut_of_linked {child : String} {chain : List Ancestor}
    (h : Linked parents child chain) :
    spelledOut parents child (chain.map (·.entity)) = chain := by
  induction chain generalizing child with
  | nil => rfl
  | cons ancestor rest ih =>
    rw [List.map_cons, spelledOut, foreignKey_of_link h.1, ih h.2]

/-- An explicit list wins over the parents of the ancestors. -/
theorem of_eq_spelledOut {entity : String} {parentage : Parentage} {explicit : List String}
    (hfind : parents.find? entity = some parentage) (hlist : parentage.ancestors = some explicit) :
    of parents entity = spelledOut parents entity explicit := by
  simp only [of, hfind, hlist]

/-! ## Ancestors -/

/-- A chain of ancestors that was walked from an entity. -/
structure Walked (parents : Keyed Parentage) (entity : String) (chain : List Ancestor) : Prop where
  /-- No entity occurs twice, the first one included. -/
  nodup : (entity :: chain.map (·.entity)).Nodup
  /-- The chain starts with the parent of the entity, unless that is the entity itself. -/
  head?_eq : ∀ parentage, parents.find? entity = some parentage → parentage.parent ≠ entity →
    chain.head? = some parentage.link
  linked : Linked parents entity chain
  /-- The last entity has no parent, or its parent occurs before. -/
  stops : parents.find? (top entity chain) = none ∨
    ∃ parentage, parents.find? (top entity chain) = some parentage ∧
      parentage.parent ∈ entity :: chain.map (·.entity)

/-- A climb from an entity is a walk that stops for a reason. -/
theorem Climb.walked {entity : String} {chain : List Ancestor}
    (h : Climb parents [entity] entity chain) : Walked parents entity chain where
  nodup := List.nodup_cons.2 ⟨fun hmem => h.fresh entity hmem List.mem_cons_self, h.nodup⟩
  head?_eq parentage hfind hne := by
    cases h with
    | root noParent => simp [hfind] at noParent
    | met isChild known =>
      obtain rfl := Option.some.inj (hfind.symm.trans isChild)
      exact absurd (List.mem_singleton.1 known) hne
    | up isChild _ _ =>
      obtain rfl := Option.some.inj (hfind.symm.trans isChild)
      rfl
  linked := h.linked
  stops := h.stops.imp_right fun ⟨parentage, hfind, hparent⟩ =>
    ⟨parentage, hfind, List.mem_cons.2 (hparent.imp_left List.mem_singleton.1)⟩

/-- The ancestors of an entity, for any map of parents. Without an explicit list they are walked
from parent to parent, and the walk comes to an end. With an explicit list they are the entities of
the list in their order; if these are the entities that are walked without it, the ancestors are the
same, and so are their foreign keys. -/
theorem of_wellLinked (parents : Keyed Parentage) (entity : String) :
    ((parents.find? entity).bind (·.ancestors) = none →
      Walked parents entity (of parents entity)) ∧
    ∀ parentage explicit, parents.find? entity = some parentage →
      parentage.ancestors = some explicit →
        (of parents entity).map (·.entity) = explicit ∧
        ∀ walked, walked = of (parents.insert entity { parentage with ancestors := none }) entity →
          explicit = walked.map (·.entity) → of parents entity = walked := by
  refine ⟨fun h => (climb_of h).walked, fun parentage explicit hfind hlist => ⟨?_, ?_⟩⟩
  · rw [of_eq_spelledOut hfind hlist, map_entity_spelledOut]
  · rintro walked rfl rfl
    have hnone : ((parents.insert entity { parentage with ancestors := none }).find?
        entity).bind (·.ancestors) = none := by
      rw [Keyed.find?_insert, if_pos rfl]
      rfl
    have hlink : Parentage.link { parentage with ancestors := none } = parentage.link := rfl
    rw [of_eq_spelledOut hfind hlist]
    exact spelledOut_of_linked ((climb_of hnone).linked.congr (map_link_find?_insert hfind hlink))

end Ancestry

namespace Sample

/-- Comments belong to posts and posts to users, who have one of their posts pinned. -/
def threads : Keyed Parentage := Keyed.ofList
  [("comment", { parent := "post", foreignKey := "postId" }),
    ("post", { parent := "user", foreignKey := "userId" }),
    ("user", { parent := "post", foreignKey := "pinnedPostId" })]

/-- The same parents, with the ancestors of comments spelled out. -/
def spelledThreads : Keyed Parentage := threads.insert "comment"
  { parent := "post", foreignKey := "postId", ancestors := some ["post", "user"] }

/-- The walk from a comment ends at the user, whose parent is the post before. To spell it out
changes nothing. -/
theorem threads_wellLinked :
    Ancestry.of threads "comment" = [⟨"post", "postId"⟩, ⟨"user", "userId"⟩] ∧
      Ancestry.Walked threads "comment" (Ancestry.of threads "comment") ∧
      (Ancestry.of spelledThreads "comment").map (·.entity) = ["post", "user"] ∧
      Ancestry.of spelledThreads "comment" = Ancestry.of threads "comment" := by
  obtain ⟨hnames, hsame⟩ := (Ancestry.of_wellLinked spelledThreads "comment").2
    { parent := "post", foreignKey := "postId", ancestors := some ["post", "user"] }
    ["post", "user"] rfl rfl
  exact ⟨rfl, (Ancestry.of_wellLinked threads "comment").1 rfl, hnames, hsame _ rfl rfl⟩

end Sample

end GraphClient
