import ClearNames.Proofs.NameTree.Prolonging

/-! What a request leaves as it was.

Every node stays at its place, and what is new stands behind what was there,
with no obfuscation and no path. One node may come to carry another
obfuscation: the one that the request names, and only where the request
succeeds and does not find a duplicate.
-/

set_option autoImplicit false

namespace ClearNames

namespace Growth
open NameTree

/-! ## Steps that record -/

theorem Leads.also {α : Type} {moves : NameTree → NameTree → Prop} {step : Growth α} {tree : NameTree}
    {post goal : α → NameTree → Prop} (leads : Leads moves step tree post)
    (returns : ∀ {value later}, step.on tree = (.ok value, later) → goal value later) :
    Leads moves step tree fun value later => post value later ∧ goal value later :=
  ⟨leads.moved, fun ran => ⟨leads.returns ran, returns ran⟩⟩

/-- What a step that may fail records: nothing where it fails. -/
def recordedBy {α : Type} (node? : α → Option Node) : Except NamingFault α → Option Node
  | .ok value => node? value
  | .error _ => none

/-- A step continues a tree but for what its result records. -/
structure Frames {α : Type} (node? : α → Option Node) (step : Growth α) (tree : NameTree)
    (post : α → NameTree → Prop) : Prop where
  continues : tree.Continues (recordedBy node? (step.on tree).1) (step.on tree).2
  returns : ∀ {value later}, step.on tree = (.ok value, later) → post value later

section
variable {α β : Type} {tree : NameTree} {node? : α → Option Node} {post : α → NameTree → Prop}

theorem Frames.imp {goal : α → NameTree → Prop} {step : Growth α} (frames : Frames node? step tree post)
    (implies : ∀ value later, tree.Prolongs later → post value later → goal value later) :
    Frames node? step tree goal where
  continues := frames.continues
  returns ran := by
    have prolongs := frames.continues.toProlongs
    rw [ran] at prolongs
    exact implies _ _ prolongs (frames.returns ran)

theorem Leads.framed {first : Growth β} {next : β → Growth α} {between : β → NameTree → Prop}
    (leads : Leads (Continues none) first tree between)
    (frames : ∀ value later, tree.Continues none later → between value later → Frames node? (next value) later post) :
    Frames node? (first >>= next) tree post := by
  rcases ran : first.on tree with ⟨fault | value, middle⟩
  · refine ⟨?_, fun ends => ?_⟩
    · rw [on_bind_of_error ran]
      exact leads.moved_to ran
    · rw [on_bind_of_error ran] at ends
      cases ends
  · have moved := leads.moved_to ran
    have rest := frames value middle moved (leads.returns ran)
    refine ⟨?_, fun ends => ?_⟩
    · rw [on_bind_of_ok ran]
      exact (moved.any _).trans rest.continues
    · rw [on_bind_of_ok ran] at ends
      exact rest.returns ends

theorem marking_framed {step : Growth Unit} {value : α} {marked : NameTree}
    (ran : step.on tree = (.ok (), marked) ∨ ∃ fault, step.on tree = (.error fault, tree))
    (continues : tree.Continues (node? value) marked) (holds : post value marked) :
    Frames node? (step >>= fun _ => pure value) tree post := by
  obtain ran | ⟨fault, ran⟩ := ran
  · refine ⟨?_, fun ends => ?_⟩
    · rw [on_bind_of_ok ran]
      exact continues
    · rw [on_bind_of_ok ran] at ends
      cases ends
      exact holds
  · refine ⟨?_, fun ends => ?_⟩
    · rw [on_bind_of_error ran]
      exact .refl none tree
    · rw [on_bind_of_error ran] at ends
      cases ends

end

section
variable {tree : NameTree}

theorem on_obfuscateScope (scope : Scope) (obfuscation : Option String) :
    (obfuscateScope scope obfuscation).on tree = (.ok (), tree.putScopeObfuscation scope obfuscation) ∨
      ∃ fault, (obfuscateScope scope obfuscation).on tree = (.error fault, tree) := by
  cases scope with
  | javaClass id => exact .inl rfl
  | package id =>
    unfold obfuscateScope obfuscatePackage
    rw [on_get_bind]
    split
    · exact .inr ⟨_, rfl⟩
    · exact .inl rfl

theorem on_obfuscateMethod (id : MethodId) (obfuscation : Option String) :
    (obfuscateMethod id obfuscation).on tree = (.ok (), tree.putMethodObfuscation id obfuscation) ∨
      ∃ fault, (obfuscateMethod id obfuscation).on tree = (.error fault, tree) := by
  unfold obfuscateMethod
  rw [on_get_bind]
  split
  · exact .inr ⟨_, rfl⟩
  · exact .inl rfl

theorem aliasScope_frames (formed : tree.Formed) (identifier obfuscation : String) :
    Frames (fun scope => some (.scope scope)) (aliasScope identifier obfuscation) tree fun scope later =>
      Stands (resolve identifier) scope later ∧ later.scopeObfuscation scope = some obfuscation := by
  have resolves : (resolve identifier).Grows AnyPath tree _ := resolve_grows formed identifier fun _ _ => trivial
  unfold aliasScope
  refine ((resolves.also (resolve_stands formed)).mono Grown.continues).framed fun scope between _ holds => ?_
  obtain ⟨reached, stands⟩ := holds
  have continues := continues_putScopeObfuscation reached.known (some obfuscation)
  refine marking_framed (on_obfuscateScope scope (some obfuscation)) continues ?_
  exact ⟨stands.prolonged continues.toProlongs, (scopeObfuscation_put reached.known _ scope).trans (if_pos rfl)⟩

theorem findOrAddMethod_continues {owner : ClassId} {signature : Signature} {arguments : List TypeUse}
    (formed : tree.Formed) (known : tree.HasClass owner) (typed : ∀ type ∈ arguments, tree.HasType type) :
    Leads (Continues none) (findOrAddMethod owner signature arguments) tree fun id later =>
      later.HasMethod id ∧ later.findMethod owner signature.name arguments = some id := by
  have fit : ∀ part, part <+: segments (Descriptor.ofString signature.returns).base → AnyPath part :=
    fun _ _ => trivial
  exact findOrAddMethod_leads_of formed known typed fit Grown.continues fun _ _ => continues_add

/-- The method that a registration records the obfuscation of. -/
def registeredNode : Registration → Option Node
  | .registered id => some (.method id)
  | .duplicate _ => none

theorem recordMethod_frames {owner : ClassId} {signature : Signature} {arguments : List TypeUse}
    (formed : tree.Formed) (known : tree.HasClass owner) (typed : ∀ type ∈ arguments, tree.HasType type)
    (obfuscation : String) :
    Frames registeredNode (recordMethod owner signature arguments obfuscation) tree fun outcome later =>
      ∀ id, outcome = .registered id → later.findMethod owner signature.name arguments = some id ∧
        (later.method id).obfuscation = some obfuscation := by
  have reads : Leads (Continues none) (get : Growth NameTree) tree fun read later => read = tree ∧ later = tree :=
    ⟨.refl none tree, fun ran => by cases ran; exact ⟨rfl, rfl⟩⟩
  unfold recordMethod
  refine reads.framed fun read between _ same => ?_
  obtain ⟨rfl, rfl⟩ := same
  split
  · refine ⟨.refl none _, fun ran id registered => ?_⟩
    cases ran
    cases registered
  · refine (findOrAddMethod_continues formed known typed).framed fun id made _ found => ?_
    have continues := continues_putMethodObfuscation found.1 (some obfuscation)
    refine marking_framed (on_obfuscateMethod id (some obfuscation)) continues ?_
    rintro _ ⟨⟩
    exact ⟨found.2, (obfuscation_putMethodObfuscation found.1 _ id).trans (if_pos rfl)⟩

theorem registerMethod_frames {owner : ClassId} (formed : tree.Formed) (known : tree.HasClass owner)
    (text obfuscation : String) :
    Frames registeredNode (registerMethod owner text obfuscation) tree fun outcome later =>
      ∀ id, outcome = .registered id → Stands (resolveMethod owner text) id later ∧
        (later.method id).obfuscation = some obfuscation := by
  rw [registerMethod_eq]
  refine (readSignature_leads text).framed fun signature between _ read => ?_
  obtain ⟨parsed, rfl⟩ := read
  have resolves := (resolveTypes_grows_any formed signature.arguments).also (resolveTypes_stands formed)
  have grows := resolves.imp fun _ _ grown holds => And.intro grown holds
  refine (grows.mono Grown.continues).framed fun arguments named _ holds => ?_
  obtain ⟨grown, ⟨spelled, -⟩, stands⟩ := holds
  have records : Frames registeredNode (recordMethod owner signature arguments obfuscation) named _ :=
    recordMethod_frames (grown.formed formed) (grown.keeps.hasClass known) (hasType_of_spelled spelled) obfuscation
  refine records.imp fun outcome later prolongs holds id registered => ?_
  obtain ⟨found, carries⟩ := holds id registered
  exact ⟨resolveMethod_stands parsed (stands.prolonged prolongs) found, carries⟩

theorem aliasMethod_frames {owner : ClassId} (formed : tree.Formed) (known : tree.HasClass owner)
    (text obfuscation : String) :
    Frames (fun id => some (.method id)) (aliasMethod owner text obfuscation) tree fun id later =>
      Stands (resolveMethod owner text) id later ∧ (later.method id).obfuscation = some obfuscation := by
  have frames := registerMethod_frames formed known text obfuscation
  have continues := frames.continues
  unfold aliasMethod
  rcases ran : (registerMethod owner text obfuscation).on tree with ⟨fault | outcome, later⟩ <;> rw [ran] at continues
  · refine ⟨?_, fun ends => ?_⟩
    · rw [on_bind_of_error ran]
      exact continues
    · rw [on_bind_of_error ran] at ends
      cases ends
  · cases outcome with
    | registered id =>
      refine ⟨?_, fun ends => ?_⟩
      · rw [on_bind_of_ok ran]
        exact continues
      · rw [on_bind_of_ok ran] at ends
        cases ends
        exact frames.returns ran id rfl
    | duplicate holder =>
      -- The fault of a duplicate is told after the tree was left as the registration left it.
      refine ⟨?_, fun ends => ?_⟩
      · rw [on_bind_of_ok ran]
        exact continues
      · rw [on_bind_of_ok ran] at ends
        cases ends

theorem resolveMethod_continues {owner : ClassId} (formed : tree.Formed) (known : tree.HasClass owner) (text : String) :
    Leads (Continues none) (resolveMethod owner text) tree fun _ _ => True := by
  unfold resolveMethod
  refine (readSignature_leads text).bind fun signature between _ read => ?_
  obtain ⟨-, rfl⟩ := read
  have grows := (resolveTypes_grows_any formed signature.arguments).imp fun _ _ grown holds => And.intro grown holds.1
  refine (grows.mono Grown.continues).bind fun arguments named _ holds => ?_
  obtain ⟨grown, spelled⟩ := holds
  have finds : Leads (Continues none) (findOrAddMethod owner signature arguments) named _ :=
    findOrAddMethod_continues (grown.formed formed) (grown.keeps.hasClass known) (hasType_of_spelled spelled)
  exact finds.imp fun _ _ _ _ => trivial

section
variable {reference : ClassReference} (formed : tree.Formed) (held : tree.HoldsReference reference)
include formed held

theorem referred_frames {α : Type} {node? : α → Option Node} {next : ClassId → Growth α}
    {post : ClassId → α → NameTree → Prop}
    (frames : ∀ {owner between}, between.Formed → between.HasClass owner → Frames node? (next owner) between (post owner)) :
    Frames node? (resolveReference reference >>= next) tree fun value later =>
      ∃ owner, Stands (resolveReference reference) owner later ∧ post owner value later := by
  have resolves := (resolveReference_grows formed held).also (resolveReference_stands formed)
  have grows := resolves.imp fun _ _ grown holds => And.intro grown holds
  refine (grows.mono Grown.continues).framed fun owner between _ holds => ?_
  obtain ⟨grown, ⟨known, -⟩, stands⟩ := holds
  exact (frames (grown.formed formed) known).imp fun _ _ prolongs holds => ⟨owner, stands.prolonged prolongs, holds⟩

end

end

end Growth

/-! ## Requests -/

namespace Request
open NameTree Growth

/-- The node whose obfuscation a request records: the one that it returns, and none where it fails,
finds a duplicate, or gives no obfuscation. -/
def recorded (tree : NameTree) : Request → Option Node
  | .scope _ | .base _ | .type _ | .method _ _ => none
  | .aliasScope identifier obfuscation =>
    recordedBy (fun scope => some (.scope scope)) ((NameTree.aliasScope identifier obfuscation).on tree).1
  | .aliasMethod owner text obfuscation =>
    recordedBy (fun id => some (.method id)) ((aliasMethodOf owner text obfuscation).on tree).1
  | .registerMethod owner text obfuscation =>
    recordedBy registeredNode ((registerMethodOf owner text obfuscation).on tree).1

/-- A node is the one that a request names, and carries what it gives: who asks for it by the same
names, without an obfuscation, comes to this node, and makes nothing. -/
def Records (later : NameTree) : Request → Node → Prop
  | .aliasScope identifier obfuscation, .scope named =>
    (resolve identifier).on later = (.ok named, later) ∧ later.scopeObfuscation named = some obfuscation
  | .aliasMethod reference text obfuscation, .method id | .registerMethod reference text obfuscation, .method id =>
    (∃ owner, (resolveReference reference).on later = (.ok owner, later) ∧
      (resolveMethod owner text).on later = (.ok id, later)) ∧ (later.method id).obfuscation = some obfuscation
  | _, _ => False

theorem continues {tree : NameTree} (formed : tree.Formed) {request : Request} (held : request.Held tree) :
    tree.Continues (request.recorded tree) (request.after tree) := by
  cases request with
  | scope identifier =>
    have grows : (resolve identifier).Grows AnyPath tree _ := resolve_grows formed identifier fun _ _ => trivial
    exact grows.moved.continues
  | base name =>
    have grows : (resolveBase name).Grows AnyPath tree _ := resolveBase_grows formed name fun _ _ => trivial
    exact grows.moved.continues
  | type descriptor => exact (resolveType_grows_any formed descriptor).moved.continues
  | method owner text => exact (resolveMethod_continues formed held text).moved
  | aliasScope identifier obfuscation => exact (aliasScope_frames formed identifier obfuscation).continues
  | aliasMethod reference text obfuscation =>
    exact (referred_frames formed held fun formed known => aliasMethod_frames formed known text obfuscation).continues
  | registerMethod reference text obfuscation =>
    exact (referred_frames formed held fun formed known => registerMethod_frames formed known text obfuscation).continues

theorem recordedBy_eq_some {α : Type} {node? : α → Option Node} {step : Growth α} {tree : NameTree} {node : Node}
    (recorded : recordedBy node? (step.on tree).1 = some node) :
    ∃ value, step.on tree = (.ok value, (step.on tree).2) ∧ node? value = some node := by
  rcases ran : step.on tree with ⟨fault | value, later⟩ <;> rw [ran] at recorded
  · cases recorded
  · exact ⟨value, rfl, recorded⟩

theorem records {tree : NameTree} (formed : tree.Formed) {request : Request} (held : request.Held tree) {node : Node}
    (recorded : request.recorded tree = some node) : request.Records (request.after tree) node := by
  cases request with
  | scope | base | type | method => cases recorded
  | aliasScope identifier obfuscation =>
    obtain ⟨named, ran, told⟩ := recordedBy_eq_some recorded
    cases told
    obtain ⟨stands, carries⟩ := (aliasScope_frames formed identifier obfuscation).returns ran
    exact ⟨stands.here, carries⟩
  | aliasMethod reference text obfuscation =>
    obtain ⟨id, ran, told⟩ := recordedBy_eq_some recorded
    cases told
    obtain ⟨owner, refers, stands, carries⟩ :=
      (referred_frames formed held fun formed known => aliasMethod_frames formed known text obfuscation).returns ran
    exact ⟨⟨owner, refers.here, stands.here⟩, carries⟩
  | registerMethod reference text obfuscation =>
    obtain ⟨outcome, ran, told⟩ := recordedBy_eq_some recorded
    obtain ⟨owner, refers, registers⟩ :=
      (referred_frames formed held fun formed known => registerMethod_frames formed known text obfuscation).returns ran
    cases outcome with
    | duplicate holder => cases told
    | registered id =>
      cases told
      obtain ⟨stands, carries⟩ := registers id rfl
      exact ⟨⟨owner, refers.here, stands.here⟩, carries⟩

end Request

namespace NameTree

/-- A request leaves every node at its place and every obfuscation as it was, but for the obfuscation
that it records: that of the node that it names. What is new stands behind what was there, and is bare. -/
theorem Reachable.request_continues {tree : NameTree} (reachable : Reachable tree) {request : Request}
    (held : request.Held tree) :
    tree.Continues (request.recorded tree) (request.after tree) ∧
      (∀ node, ¬ tree.HasNode node → request.recorded tree ≠ some node →
        (request.after tree).obfuscationOf node = none) ∧
      (∀ id, ¬ tree.HasClass id → ((request.after tree).javaClass id).path = none) ∧
      ∀ node, request.recorded tree = some node → request.Records (request.after tree) node := by
  have continues := Request.continues reachable.formed held
  exact ⟨continues, fun _ => continues.bare_of_new, fun _ => continues.unlocated_of_new,
    fun _ => Request.records reachable.formed held⟩

/-- A request that fails on its way leaves the class that it made before without an obfuscation. -/
theorem request_continues_packageBelowClass :
    let asked := Request.aliasScope "com.Qux.bar" "b"
    asked.recorded oneMethod = none ∧ ¬ oneMethod.HasClass ⟨1⟩ ∧ (asked.after oneMethod).HasClass ⟨1⟩ ∧
      (asked.after oneMethod).obfuscationOf (.scope (.javaClass ⟨1⟩)) = none ∧
      oneMethod.Continues none (asked.after oneMethod) := by
  intro asked
  have given : Request.Held .empty (.registerMethod (.named "com.Foo") "void bar(int)" "a") := trivial
  have reachable : Reachable oneMethod := (Requested.after .empty given).reachable
  have nothing : asked.recorded oneMethod = none := by decide +kernel
  have new : ¬ oneMethod.HasClass ⟨1⟩ := show ¬ 1 < oneMethod.classes.size by decide +kernel
  obtain ⟨continues, bare, -, -⟩ := reachable.request_continues (show asked.Held oneMethod from trivial)
  rw [nothing] at continues bare
  exact ⟨nothing, new, show 1 < (asked.after oneMethod).classes.size by decide +kernel,
    bare (.scope (.javaClass ⟨1⟩)) new (by simp), continues⟩

end NameTree

end ClearNames
