import ComponentBindings.Proofs.Names
import ComponentBindings.Proofs.Places
import Mathlib.Data.List.Nodup
import Mathlib.Logic.Function.Basic

/-!
# What the modules hold

While a run goes on, its modules fill up. What each of them is to declare at
a given moment is a list of types and a list of functions, and `Contents`
gives both for every module, open or not. That a session is `Kept` with given
contents says that its modules are just that: every type and function is
declared, in order, by a faithful declaration, and nothing else is.
Faithfulness is relative to the wording of the module, which only grows, so
it is asserted for all wordings that say what the session has on record. In the
same way the names of a module are held (`Module.Named`) under all claims that
the session may come to.

The steps of a run are few. It opens a module, adds a declaration to one, and
otherwise lets the session grow; each step has its lemma here, and the
contents change by the one entry that the step is about.
-/

namespace ComponentBindings

/-- What a module is to declare, in order. -/
structure Content where
  /-- The types, by their ids. -/
  types : List Int := []
  /-- The functions. -/
  functions : List Function := []

/-- What each module is to declare. -/
abbrev Contents := ModuleKey → Content

/-- The content with one more type. -/
def Content.addType (c : Content) (id : Int) : Content := { c with types := c.types ++ [id] }

/-- The content with one more function. -/
def Content.addFunction (c : Content) (f : Function) : Content :=
  { c with functions := c.functions ++ [f] }

/-- **A module whose names are held** in the scope that its path is: those of
its types and functions, with their members and parameters. -/
structure Module.Named (g : Graph) (claims : Claims) (c : Content) (m : Module) : Prop where
  /-- The types and their members hold their identifiers. -/
  types : ∀ d ∈ m.types ++ m.resources, ∃ t, g.typeDef d.id = .ok t ∧
    DeclarationHeld g claims m.location.path t d
  /-- The functions and their parameters hold theirs. -/
  functions : List.Forall₂ (fun f d =>
    SignatureHeld claims m.location.path f f.params d.signature) c.functions m.functions

/-- The module with one more declared type, among its resources or its other
types. -/
def Module.withType (m : Module) (d : TypeDeclaration) : Module :=
  if d.isResource then { m with resources := m.resources ++ [d] }
  else { m with types := m.types ++ [d] }

section WithType

variable {m : Module} {d : TypeDeclaration}

@[simp] theorem Module.withType_key : (m.withType d).key = m.key := by
  unfold withType
  split <;> rfl

@[simp] theorem Module.withType_location : (m.withType d).location = m.location := by
  unfold withType
  split <;> rfl

@[simp] theorem Module.withType_functions : (m.withType d).functions = m.functions := by
  unfold withType
  split <;> rfl

/-- The types of the module with one more are those of the module, and the new
one if it declares no resource. -/
theorem Module.withType_types :
    (m.withType d).types = m.types ++ [d].filter fun d => !d.isResource := by
  unfold withType
  cases hresource : d.isResource <;> simp [hresource]

/-- The resources of the module with one more type are those of the module, and
the new one if it declares a resource. -/
theorem Module.withType_resources :
    (m.withType d).resources = m.resources ++ [d].filter TypeDeclaration.isResource := by
  unfold withType
  cases hresource : d.isResource <;> simp [hresource]

/-- What is declared with one more type is what was declared, or the type. -/
theorem Module.mem_withType {d' : TypeDeclaration}
    (h : d' ∈ (m.withType d).types ++ (m.withType d).resources) :
    d' ∈ m.types ++ m.resources ∨ d' = d := by
  rw [withType_types, withType_resources] at h
  simp only [List.mem_append, List.mem_filter, List.mem_singleton] at h ⊢
  rcases h with (h | ⟨h, -⟩) | h | ⟨h, -⟩
  · exact .inl (.inl h)
  · exact .inr h
  · exact .inl (.inr h)
  · exact .inr h

end WithType

/-- The names of a module that declares one type more are held if those of the
type are. -/
theorem Module.Named.withType {g : Graph} {claims : Claims} {c : Content} {m : Module}
    (h : m.Named g claims c) {id : Int} {t : TypeDef} {d : TypeDeclaration}
    (ht : g.typeDef d.id = .ok t) (hd : DeclarationHeld g claims m.location.path t d) :
    (m.withType d).Named g claims (c.addType id) where
  types d' hd' := by
    rw [withType_location]
    rcases mem_withType hd' with hd' | rfl
    · exact h.types d' hd'
    · exact ⟨t, ht, hd⟩
  functions := by
    rw [withType_location, withType_functions]
    exact h.functions

/-- A change to a module keeps the keys, so the same modules are open after
it. -/
theorem Session.opened_changeModule {s : Session} {key : ModuleKey} {change : Module → Module}
    (hkey : ∀ m, (change m).key = m.key) :
    ({ s with modules := s.modules.map fun m =>
      if m.key = key then change m else m } : Session).opened = s.opened := by
  unfold Session.opened
  rw [List.map_map]
  refine List.map_congr_left fun m _ => ?_
  by_cases hm : m.key = key <;> simp [hm, hkey]

namespace Assignment

/-- The key under which an interface is generated in a direction: one of its
keys there, or none if the world does not list it and it is imported for its
types. -/
def ListedAs (a : Assignment) (j : Int) (direction : Direction) : Option Scalar → Prop
  | some key => (direction, key, .interface j) ∈ a.items
  | none => a.Unlisted j ∧ direction = .imported

/-- The place that the declarations of a module are emitted into. -/
def IsSite (a : Assignment) (key : ModuleKey) (location : Location) (site : Site) : Prop :=
  site.scope = location.path ∧ match key with
    | .interface j direction => site.direction = direction ∧ ∃ key, a.ListedAs j direction key ∧
      a.graph.identityOf j (key.filter (!·.isEmpty) <|> a.keyOf j) = .ok site.identity
    | .world direction => site.direction = direction ∧ site.identity = worldIdentity

/-- **A module declares a content**: the declarations `ds` are those of its
types, kept apart by whether they declare a resource, and its functions are
those of the content. -/
structure Declares (a : Assignment) (m : Module) (w : Wording) (c : Content)
    (ds : List TypeDeclaration) : Prop where
  /-- Each type has its declaration. -/
  declared : List.Forall₂ (fun id d => ∃ t site, a.graph.typeDef id = .ok t ∧
    a.IsSite m.key m.location site ∧ DeclarationOf a.graph w site t d) c.types ds
  /-- The types of the module are the declarations that are no resources. -/
  types : m.types = ds.filter fun d => !d.isResource
  /-- The resources of the module are the others. -/
  resources : m.resources = ds.filter TypeDeclaration.isResource
  /-- The functions are those of the content. -/
  functions : List.Forall₂ (fun f d => ∃ site, a.IsSite m.key m.location site ∧
    FunctionOf a.graph w site f d) c.functions m.functions

variable {a : Assignment}

/-- A module that declares one type more declares the content with that
type. -/
theorem Declares.withType {m : Module} {w : Wording} {c : Content} {ds : List TypeDeclaration}
    (h : a.Declares m w c ds) {id : Int} {t : TypeDef} {site : Site} {d : TypeDeclaration}
    (ht : a.graph.typeDef id = .ok t) (hsite : a.IsSite m.key m.location site)
    (hd : DeclarationOf a.graph w site t d) :
    a.Declares (m.withType d) w (c.addType id) (ds ++ [d]) where
  declared := by
    rw [Module.withType_key, Module.withType_location]
    exact List.rel_append h.declared (.cons ⟨t, site, ht, hsite, hd⟩ .nil)
  types := by rw [Module.withType_types, h.types, List.filter_append]
  resources := by rw [Module.withType_resources, h.resources, List.filter_append]
  functions := by
    rw [Module.withType_key, Module.withType_location, Module.withType_functions]
    exact h.functions

/-- **A module that lives where it should**, with the claims of its location.
One of an interface is there for a reason, too. -/
def Placed (a : Assignment) (claims : Claims) : ModuleKey → Location → Prop
  | .interface j direction, location =>
    a.interfacePlace j direction = .ok location ∧ a.Granted claims j location ∧
      ∃ key, a.ListedAs j direction key
  | .world direction, location =>
    a.layout.worldPlace a.world.name direction = .ok location ∧
      a.layout.WorldGranted claims a.world.name direction

/-- A module that is in its place stays there. -/
theorem Placed.mono {claims claims' : Claims} {key : ModuleKey} {location : Location}
    (h : a.Placed claims key location) (hmore : claims <+: claims') :
    a.Placed claims' key location := by
  cases key with
  | interface j direction =>
    obtain ⟨hplace, ⟨package, name, hcalled, hgranted⟩, hlisted⟩ := h
    exact ⟨hplace, ⟨package, name, hcalled, hgranted.mono hmore⟩, hlisted⟩
  | world direction =>
    exact ⟨h.1, h.2.mono hmore⟩

/-- A module has one place. -/
theorem Placed.unique {claims claims' : Claims} {key : ModuleKey} {location location' : Location}
    (h : a.Placed claims key location) (h' : a.Placed claims' key location') :
    location = location' := by
  cases key with
  | interface j direction => exact Except.ok.inj (h.1.symm.trans h'.1)
  | world direction => exact Except.ok.inj (h.1.symm.trans h'.1)

/-- **A session whose modules hold given contents.** -/
structure Kept (a : Assignment) (orderly : a.graph.Orderly) (granted : Int → Prop)
    (contents : Contents) (s : Session) : Prop where
  /-- The tables are right. -/
  coherent : (a.placement orderly granted).Coherent s
  /-- No module is open twice. -/
  nodup : s.opened.Nodup
  /-- All modules are in their places. -/
  placed : ∀ m ∈ s.modules, a.Placed s.claims m.key m.location
  /-- All modules declare their contents. -/
  declares : ∀ m ∈ s.modules, ∃ ds, ∀ w : Wording, w.Extends (s.wording (some m.location)) →
    a.Declares m w (contents m.key) ds
  /-- The names of all modules are held. -/
  named : ∀ m ∈ s.modules, ∀ claims, s.claims <+: claims →
    m.Named a.graph claims (contents m.key)

/-- Tables that are right stay right when modules are opened or changed, and
when noted interfaces are taken, as long as each still has a module to come. -/
theorem coherent_of_tables {orderly : a.graph.Orderly} {granted granted' : Int → Prop}
    {s s' : Session} (h : (a.placement orderly granted).Coherent s)
    (hreferences : s'.references = s.references)
    (hinstantiations : s'.instantiations = s.instantiations)
    (hpending : s'.pending ⊆ s.pending)
    (hnoted : ∀ o, a.Noted granted o s → a.Noted granted' o s') :
    (a.placement orderly granted').Coherent s' :=
  h.transfer rfl rfl hreferences hinstantiations (fun j hj => h.pending j (hpending hj)) hnoted

/-- Tables that are right stay right as long as the open modules stay open. -/
theorem coherent_of_modules {orderly : a.graph.Orderly} {granted : Int → Prop} {s : Session}
    {modules : List Module} (h : (a.placement orderly granted).Coherent s)
    (hopened : s.opened ⊆ ({ s with modules } : Session).opened) :
    (a.placement orderly granted).Coherent { s with modules } :=
  coherent_of_tables h rfl rfl (List.Subset.refl _) fun _ ho =>
    Noted.mono hopened (List.Subset.refl _) ho

namespace Kept

variable {orderly : a.graph.Orderly} {granted granted' : Int → Prop} {contents contents' : Contents}
  {s s' : Session} {key : ModuleKey}

/-- At first there are no modules. -/
theorem start : a.Kept orderly granted contents {} where
  coherent := .start
  nodup := List.nodup_nil
  placed _ h := absurd h List.not_mem_nil
  declares _ h := absurd h List.not_mem_nil
  named _ h := absurd h List.not_mem_nil

/-- Only the contents of open modules matter. -/
theorem congr (h : a.Kept orderly granted contents s)
    (heq : ∀ key ∈ s.opened, contents key = contents' key) :
    a.Kept orderly granted contents' s where
  coherent := h.coherent
  nodup := h.nodup
  placed := h.placed
  declares m hm := by
    rw [← heq m.key (List.mem_map_of_mem hm)]
    exact h.declares m hm
  named m hm := by
    rw [← heq m.key (List.mem_map_of_mem hm)]
    exact h.named m hm

/-- **The modules stay as they are while the session grows.** -/
theorem of_grows (h : a.Kept orderly granted contents s) (hgrows : s.Grows s')
    (hcoherent : (a.placement orderly granted).Coherent s') :
    a.Kept orderly granted contents s' where
  coherent := hcoherent
  nodup := by
    rw [hgrows.opened]
    exact h.nodup
  placed m hm := by
    rw [hgrows.modules] at hm
    exact (h.placed m hm).mono hgrows.claims
  declares m hm := by
    rw [hgrows.modules] at hm
    obtain ⟨ds, hdeclares⟩ := h.declares m hm
    exact ⟨ds, fun w hw => hdeclares w (hw.trans (hgrows.extends _))⟩
  named m hm claims hmore := by
    rw [hgrows.modules] at hm
    exact h.named m hm claims (hgrows.claims.trans hmore)

/-- The modules stay as they are while claims are made. -/
theorem of_claims (h : a.Kept orderly granted contents s) {claims : Claims}
    (hmore : s.claims <+: claims) : a.Kept orderly granted contents { s with claims } :=
  h.of_grows (.ofClaims hmore) (h.coherent.of_tables (.ofClaims hmore) rfl rfl fun _ => .inl)

/-- Noted interfaces may be taken, and other grants be given, as long as
whatever has been asked for still has a module to come. -/
theorem regrant (h : a.Kept orderly granted contents s) {pending : List Int}
    (hpending : pending ⊆ s.pending)
    (hnoted : ∀ o, a.Noted granted o s → a.Noted granted' o { s with pending }) :
    a.Kept orderly granted' contents { s with pending } where
  coherent := coherent_of_tables h.coherent rfl rfl hpending hnoted
  nodup := h.nodup
  placed := h.placed
  declares := h.declares
  named := h.named

/-- **A module is opened**, with nothing in it. -/
theorem openModule {location : Location} {docs : Option String} {u : Unit}
    (h : a.Kept orderly granted contents s) (hcontents : key ∉ s.opened → contents key = {})
    (hplaced : a.Placed s.claims key location)
    (hrun : Assignment.openModule key location docs s = .ok u s') :
    a.Kept orderly granted contents s' ∧ key ∈ s'.opened ∧ s.Advances s' := by
  unfold Assignment.openModule at hrun
  rw [modify_eq_ok] at hrun
  split at hrun
  · next hopen =>
    obtain rfl := hrun
    have hkey : key ∈ s.opened := by simpa [Session.opened] using hopen
    exact ⟨h, hkey, .refl s⟩
  · next hopen =>
    obtain rfl := hrun
    have hkey : key ∉ s.opened := by simpa [Session.opened] using hopen
    have hopened : ({ s with modules := s.modules ++ [{ key, location, docs }] } : Session).opened
        = s.opened ++ [key] := by simp [Session.opened]
    have hmore : s.opened ⊆ s.opened ++ [key] := List.subset_append_left _ _
    -- The new module stands last, and is as empty as its contents.
    refine ⟨⟨?_, ?_, ?_, ?_, ?_⟩, ?_, List.prefix_rfl, ?_, fun j hj => hj⟩
    · exact coherent_of_modules h.coherent (hopened ▸ hmore)
    · rw [hopened, ← List.concat_eq_append]
      exact h.nodup.concat hkey
    · intro m hm
      rcases List.mem_append.mp hm with hm | hm
      · exact h.placed m hm
      · obtain rfl := List.mem_singleton.mp hm
        exact hplaced
    · intro m hm
      rcases List.mem_append.mp hm with hm | hm
      · exact h.declares m hm
      · obtain rfl := List.mem_singleton.mp hm
        refine ⟨[], fun w _ => ⟨?_, rfl, rfl, ?_⟩⟩ <;> rw [hcontents hkey] <;> exact .nil
    · intro m hm
      rcases List.mem_append.mp hm with hm | hm
      · exact h.named m hm
      · obtain rfl := List.mem_singleton.mp hm
        intro claims _
        refine ⟨fun d hd => absurd hd List.not_mem_nil, ?_⟩
        rw [hcontents hkey]
        exact .nil
    · rw [hopened]
      exact List.mem_append_right _ (List.mem_singleton_self key)
    · rw [hopened]
      exact hmore

/-- **A declaration is added to a module**, and its content gets one more
entry. -/
theorem changeModule {change : Module → Module} {content : Content} {u : Unit}
    (h : a.Kept orderly granted contents s)
    (hrun : Assignment.changeModule key change s = .ok u s')
    (hkey : ∀ m, (change m).key = m.key) (hlocation : ∀ m, (change m).location = m.location)
    (hdeclares : ∀ m ∈ s.modules, m.key = key → ∀ ds,
      (∀ w : Wording, w.Extends (s.wording (some m.location)) →
        a.Declares m w (contents key) ds) →
      ∃ ds, ∀ w : Wording, w.Extends (s.wording (some m.location)) →
        a.Declares (change m) w content ds)
    (hnamed : ∀ m ∈ s.modules, m.key = key → ∀ claims, s.claims <+: claims →
      m.Named a.graph claims (contents key) → (change m).Named a.graph claims content) :
    a.Kept orderly granted (Function.update contents key content) s' ∧ s.Advances s' := by
  unfold Assignment.changeModule at hrun
  obtain rfl := modify_eq_ok.mp hrun
  have hopened : ({ s with modules := s.modules.map fun m =>
      if m.key = key then change m else m } : Session).opened = s.opened :=
    Session.opened_changeModule hkey
  refine ⟨⟨?_, ?_, ?_, ?_, ?_⟩, List.prefix_rfl, fun k hk => hopened ▸ hk, fun j hj => hj⟩
  · exact coherent_of_modules h.coherent fun k hk => hopened ▸ hk
  · rw [hopened]
    exact h.nodup
  · intro m' hm'
    obtain ⟨m, hm, rfl⟩ := List.mem_map.mp hm'
    by_cases hmkey : m.key = key
    · rw [if_pos hmkey, hkey, hlocation]
      exact h.placed m hm
    · rw [if_neg hmkey]
      exact h.placed m hm
  · intro m' hm'
    obtain ⟨m, hm, rfl⟩ := List.mem_map.mp hm'
    by_cases hmkey : m.key = key
    · rw [if_pos hmkey, hkey, hlocation, hmkey, Function.update_self]
      obtain ⟨ds, hds⟩ := h.declares m hm
      rw [hmkey] at hds
      exact hdeclares m hm hmkey ds hds
    · rw [if_neg hmkey, Function.update_of_ne hmkey]
      exact h.declares m hm
  · intro m' hm' claims hmore
    obtain ⟨m, hm, rfl⟩ := List.mem_map.mp hm'
    by_cases hmkey : m.key = key
    · rw [if_pos hmkey, hkey, hmkey, Function.update_self]
      exact hnamed m hm hmkey claims hmore (hmkey ▸ h.named m hm claims hmore)
    · rw [if_neg hmkey, Function.update_of_ne hmkey]
      exact h.named m hm claims hmore

/-- **A declared type is added to its module.** -/
theorem addType {id : Int} {t : TypeDef} {d : TypeDeclaration} {site : Site} {location : Location}
    {u : Unit} (h : a.Kept orderly granted contents s)
    (hplaced : a.Placed s.claims key location)
    (hsite : a.IsSite key location site) (ht : a.graph.typeDef id = .ok t)
    (hd : ∀ w : Wording, w.Extends (s.wording (some location)) →
      DeclarationOf a.graph w site t d)
    (hheld : ∀ claims, s.claims <+: claims → DeclarationHeld a.graph claims site.scope t d)
    (hrun : Assignment.addType key d s = .ok u s') :
    a.Kept orderly granted (Function.update contents key ((contents key).addType id)) s' ∧
      s.Advances s' := by
  have hchange : Assignment.changeModule key (·.withType d) s = .ok u s' := hrun
  refine h.changeModule hchange (fun _ => Module.withType_key)
    (fun _ => Module.withType_location) ?_ ?_
  · intro m hm hmkey ds hds
    obtain rfl : m.location = location := Placed.unique (hmkey ▸ h.placed m hm) hplaced
    exact ⟨ds ++ [d], fun w hw => (hds w hw).withType ht (hmkey ▸ hsite) (hd w hw)⟩
  · intro m hm hmkey claims hmore hold
    obtain rfl : m.location = location := Placed.unique (hmkey ▸ h.placed m hm) hplaced
    have hdheld : DeclarationHeld a.graph claims m.location.path t d :=
      hsite.1 ▸ hheld claims hmore
    have hentry : a.graph.typeDef d.id = .ok t := by rwa [hdheld.id, orderly.typeDef_id ht]
    exact hold.withType hentry hdheld

/-- **A function is added to its module.** -/
theorem addFunction {f : Function} {d : FreeFunction} {site : Site} {location : Location}
    {u : Unit} (h : a.Kept orderly granted contents s)
    (hplaced : a.Placed s.claims key location)
    (hsite : a.IsSite key location site)
    (hd : ∀ w : Wording, w.Extends (s.wording (some location)) → FunctionOf a.graph w site f d)
    (hheld : ∀ claims, s.claims <+: claims →
      SignatureHeld claims site.scope f f.params d.signature)
    (hrun : Assignment.addFunction key d s = .ok u s') :
    a.Kept orderly granted (Function.update contents key ((contents key).addFunction f)) s' ∧
      s.Advances s' := by
  refine h.changeModule hrun (fun _ => rfl) (fun _ => rfl) ?_ ?_
  · intro m hm hmkey ds hds
    obtain rfl : m.location = location := Placed.unique (hmkey ▸ h.placed m hm) hplaced
    refine ⟨ds, fun w hw => ?_⟩
    have hold := hds w hw
    exact ⟨hold.declared, hold.types, hold.resources,
      List.rel_append hold.functions (.cons ⟨site, hmkey ▸ hsite, hd w hw⟩ .nil)⟩
  · intro m hm hmkey claims hmore hold
    obtain rfl : m.location = location := Placed.unique (hmkey ▸ h.placed m hm) hplaced
    exact ⟨hold.types, List.rel_append hold.functions (.cons (hsite.1 ▸ hheld claims hmore) .nil)⟩

end Kept

end Assignment

end ComponentBindings
