import PspBoot.Proofs.Chain.Network
import PspBoot.Proofs.Source.Content

/-!
# Registered factories

A host registers factories one after another, also for beginnings of each other, for the empty
beginning, and again for one that it has registered before.  `Factories` is to be an ordered map of
what was registered (`Factories.Keeps`): each beginning is there once, in the order in which the
beginnings were registered for the first time, with the factory that was registered for it last.

So the registrations settle what is opened for a locator (`Opener.opens_registered`).  A network
locator gets a network chain whatever they are.  Any other goes to the beginning that decides on it
(`Factories.Decides`), the earliest of those that its path starts with, and only without one to the
file system.
-/

namespace PspBoot

variable {η : Type} {locator : Locator}

theorem Locator.startsWith_iff {beginning : String} :
    locator.startsWith beginning = true ↔ beginning.toList <+: locator.path.toList :=
  List.isPrefixOf_iff_prefix

namespace Factories

variable {factories : Factories η} {registrations : List (String × Factory η)}
  {beginning other : String} {factory factory' : Factory η}

/-! ### What has been registered -/

/-- The factories after registrations have been made one after the other. -/
def ofRegistrations (registrations : List (String × Factory η)) : Factories η :=
  registrations.foldl (fun factories entry => factories.register entry.1 entry.2) {}

/-- A beginning had been registered at a time when another one had not. -/
def Precedes (registrations : List (String × Factory η)) (beginning other : String) : Prop :=
  ∃ made, made <+: registrations ∧ beginning ∈ made.map Prod.fst ∧ other ∉ made.map Prod.fst

/-- Of the factories registered for a beginning, this is the last. -/
def IsLatest (registrations : List (String × Factory η)) (beginning : String)
    (factory : Factory η) : Prop :=
  (registrations.filter fun entry => entry.1 = beginning).getLast? = some (beginning, factory)

/-- A beginning decides on a locator: it is the earliest of those that the path starts with. -/
structure Decides (registrations : List (String × Factory η)) (locator : Locator)
    (beginning : String) : Prop where
  registered : beginning ∈ registrations.map Prod.fst
  fits : beginning.toList <+: locator.path.toList
  earliest : ∀ other ∈ registrations.map Prod.fst, other.toList <+: locator.path.toList →
    other = beginning ∨ Precedes registrations beginning other

/-- The factories are an ordered map of what was registered. -/
structure Keeps (factories : Factories η) (registrations : List (String × Factory η)) : Prop where
  ordered : factories.beginnings.Pairwise (Precedes registrations)
  mem_iff : ∀ beginning factory,
    (beginning, factory) ∈ factories.entries ↔ IsLatest registrations beginning factory

theorem Precedes.ne (h : Precedes registrations beginning other) : beginning ≠ other := by
  rintro rfl
  obtain ⟨made, -, hmem, hnot⟩ := h
  exact hnot hmem

/-- Of two times one is not after the other. -/
theorem Precedes.asymm (h : Precedes registrations beginning other) :
    ¬Precedes registrations other beginning := by
  rintro ⟨made', hmade', hother, hnone⟩
  obtain ⟨made, hmade, hmem, hnot⟩ := h
  rcases List.prefix_or_prefix_of_prefix hmade hmade' with hle | hle
  · exact hnone ((hle.map Prod.fst).subset hmem)
  · exact hnot ((hle.map Prod.fst).subset hother)

theorem Precedes.append (h : Precedes registrations beginning other)
    (later : List (String × Factory η)) :
    Precedes (registrations ++ later) beginning other := by
  obtain ⟨made, hmade, hmem, hnot⟩ := h
  exact ⟨made, hmade.trans (List.prefix_append _ _), hmem, hnot⟩

theorem IsLatest.unique (h : IsLatest registrations beginning factory)
    (h' : IsLatest registrations beginning factory') : factory = factory' := by
  have hlast := h.symm.trans h'
  rw [Option.some.injEq, Prod.mk.injEq] at hlast
  exact hlast.2

/-- A new registration is the last for its beginning, and changes nothing for the others. -/
theorem isLatest_append (entry : String × Factory η) :
    IsLatest (registrations ++ [entry]) beginning factory ↔
      (beginning, factory) = entry ∨
        entry.1 ≠ beginning ∧ IsLatest registrations beginning factory := by
  unfold IsLatest
  rw [List.filter_append]
  by_cases hentry : entry.1 = beginning
  · simp [hentry, eq_comm]
  · have hne : (beginning, factory) ≠ entry := fun heq => hentry (heq ▸ rfl)
    simp [hentry, hne]

/-- What has been registered has a last factory. -/
theorem exists_isLatest_iff :
    (∃ factory, IsLatest registrations beginning factory) ↔
      beginning ∈ registrations.map Prod.fst := by
  constructor
  · rintro ⟨factory, hlatest⟩
    have hmem := List.mem_filter.mp (List.mem_of_getLast? hlatest)
    exact List.mem_map_of_mem hmem.1
  · intro hregistered
    obtain ⟨entry, hmem, rfl⟩ := List.mem_map.mp hregistered
    cases hlast : (registrations.filter fun other => other.1 = entry.1).getLast? with
    | none =>
      rw [List.getLast?_eq_none_iff, List.filter_eq_nil_iff] at hlast
      exact absurd (decide_eq_true rfl) (hlast entry hmem)
    | some last =>
      have hname : last.1 = entry.1 := by
        simpa using (List.mem_filter.mp (List.mem_of_getLast? hlast)).2
      refine ⟨last.2, ?_⟩
      rw [IsLatest, hlast, ← hname]

/-! ### One registration -/

/-- A new beginning goes to the end, and one that is known stays in its place. -/
theorem map_fst_upsert (beginning : String) (factory : Factory η)
    (entries : List (String × Factory η)) :
    (upsert beginning factory entries).map Prod.fst =
      if beginning ∈ entries.map Prod.fst then entries.map Prod.fst
      else entries.map Prod.fst ++ [beginning] := by
  induction entries with
  | nil => rfl
  | cons head entries ih =>
    unfold upsert
    by_cases hhead : head.1 = beginning
    · simp [hhead]
    · have hne : beginning ≠ head.1 := Ne.symm hhead
      simp only [hhead, if_false, List.map_cons, ih, List.mem_cons, hne, false_or]
      split <;> rfl

/-- The entry for the beginning is replaced, and no other one changes. -/
theorem mem_upsert {entry : String × Factory η} {entries : List (String × Factory η)}
    (hnodup : (entries.map Prod.fst).Nodup) :
    entry ∈ upsert beginning factory entries ↔
      entry = (beginning, factory) ∨ beginning ≠ entry.1 ∧ entry ∈ entries := by
  induction entries with
  | nil => simp [upsert]
  | cons head entries ih =>
    rw [List.map_cons, List.nodup_cons] at hnodup
    obtain ⟨hhead, hnodup⟩ := hnodup
    unfold upsert
    by_cases hbeginning : head.1 = beginning
    · subst hbeginning
      -- The recursion stops here: what follows has other beginnings.
      have hother (hmem : entry ∈ entries) : head.1 ≠ entry.1 := fun heq =>
        hhead (heq ▸ List.mem_map_of_mem hmem)
      rw [if_pos rfl, List.mem_cons, List.mem_cons]
      constructor
      · rintro (hnew | hmem)
        · exact .inl hnew
        · exact .inr ⟨hother hmem, .inr hmem⟩
      · rintro (hnew | ⟨hne, rfl | hmem⟩)
        · exact .inl hnew
        · exact absurd rfl hne
        · exact .inr hmem
    · rw [if_neg hbeginning, List.mem_cons, ih hnodup, List.mem_cons]
      constructor
      · rintro (rfl | hnew | ⟨hne, hmem⟩)
        · exact .inr ⟨Ne.symm hbeginning, .inl rfl⟩
        · exact .inl hnew
        · exact .inr ⟨hne, .inr hmem⟩
      · rintro (hnew | ⟨hne, hhead | hmem⟩)
        · exact .inr (.inl hnew)
        · exact .inl hhead
        · exact .inr (.inr ⟨hne, hmem⟩)

namespace Keeps

variable (h : factories.Keeps registrations)
include h

theorem nodup : factories.beginnings.Nodup :=
  h.ordered.imp Precedes.ne

theorem mem_beginnings_iff :
    beginning ∈ factories.beginnings ↔ beginning ∈ registrations.map Prod.fst := by
  rw [← exists_isLatest_iff, beginnings, List.mem_map]
  constructor
  · rintro ⟨entry, hmem, rfl⟩
    exact ⟨entry.2, (h.mem_iff _ _).mp hmem⟩
  · rintro ⟨factory, hlatest⟩
    exact ⟨(beginning, factory), (h.mem_iff _ _).mpr hlatest, rfl⟩

/-- **One more registration is kept as well.** -/
theorem register (beginning : String) (factory : Factory η) :
    (factories.register beginning factory).Keeps (registrations ++ [(beginning, factory)]) where
  ordered := by
    have hordered := h.ordered.imp fun hbefore => hbefore.append [(beginning, factory)]
    have hbeginnings : (factories.register beginning factory).beginnings =
        if beginning ∈ factories.beginnings then factories.beginnings
        else factories.beginnings ++ [beginning] :=
      map_fst_upsert beginning factory factories.entries
    rw [hbeginnings]
    split
    · exact hordered
    · next hnew =>
      rw [List.pairwise_append]
      refine ⟨hordered, List.pairwise_singleton _ _, fun known hknown last hlast => ?_⟩
      obtain rfl := List.mem_singleton.mp hlast
      rw [h.mem_beginnings_iff] at hknown hnew
      exact ⟨registrations, List.prefix_append _ _, hknown, hnew⟩
  mem_iff known latest := by
    rw [Factories.register, mem_upsert h.nodup, isLatest_append, h.mem_iff]

/-- So are any number of them. -/
theorem registerAll (later : List (String × Factory η)) :
    (later.foldl (fun factories entry => factories.register entry.1 entry.2) factories).Keeps
      (registrations ++ later) := by
  -- What has been registered grows with the factories.
  induction later generalizing factories registrations with
  | nil => simpa using h
  | cons entry later ih => simpa using ih (h.register entry.1 entry.2)

end Keeps

theorem keeps_ofRegistrations (registrations : List (String × Factory η)) :
    (ofRegistrations registrations).Keeps registrations := by
  have hempty : ({} : Factories η).Keeps [] := ⟨List.Pairwise.nil, by simp [IsLatest]⟩
  exact hempty.registerAll registrations

/-! ### The beginning that decides -/

theorem Decides.unique (h : Decides registrations locator beginning)
    (h' : Decides registrations locator other) : beginning = other := by
  rcases h.earliest other h'.registered h'.fits with heq | hbefore
  · exact heq.symm
  · rcases h'.earliest beginning h.registered h.fits with heq | hafter
    · exact heq
    · exact absurd hafter hbefore.asymm

namespace Keeps

variable (h : factories.Keeps registrations)
include h

/-- What is found decides, since whatever fits as well is behind it. -/
theorem decides_of_find? {entry : String × Factory η}
    (hfind : factories.find? locator = some entry) :
    Decides registrations locator entry.1 ∧ IsLatest registrations entry.1 entry.2 := by
  obtain ⟨hfits, front, back, hentries, hfront⟩ := List.find?_eq_some_iff_append.mp hfind
  have hbeginnings :
      factories.beginnings = front.map Prod.fst ++ entry.1 :: back.map Prod.fst := by
    rw [beginnings, hentries, List.map_append, List.map_cons]
  have hordered := h.ordered
  rw [hbeginnings, List.pairwise_append, List.pairwise_cons] at hordered
  refine ⟨⟨?_, Locator.startsWith_iff.mp hfits, fun other hother hstarts => ?_⟩, ?_⟩
  · rw [← h.mem_beginnings_iff, hbeginnings]
    exact List.mem_append_right _ List.mem_cons_self
  · rw [← h.mem_beginnings_iff, hbeginnings, List.mem_append, List.mem_cons] at hother
    rcases hother with hahead | heq | hbehind
    · obtain ⟨passed, hpassed, rfl⟩ := List.mem_map.mp hahead
      have hno := hfront passed hpassed
      rw [Locator.startsWith_iff.mpr hstarts] at hno
      cases hno
    · exact .inl heq
    · exact .inr (hordered.2.1.1 other hbehind)
  · rw [← h.mem_iff, hentries]
    exact List.mem_append_right _ List.mem_cons_self

/-- **The beginning that decides is found**, with the factory that was registered for it last. -/
theorem find?_eq_some_iff :
    factories.find? locator = some (beginning, factory) ↔
      Decides registrations locator beginning ∧ IsLatest registrations beginning factory := by
  refine ⟨h.decides_of_find?, fun ⟨hdecides, hlatest⟩ => ?_⟩
  cases hfind : factories.find? locator with
  | none =>
    have hmem := (h.mem_iff beginning factory).mpr hlatest
    exact absurd (Locator.startsWith_iff.mpr hdecides.fits) (List.find?_eq_none.mp hfind _ hmem)
  | some entry =>
    obtain ⟨hdecides', hlatest'⟩ := h.decides_of_find? hfind
    obtain rfl := hdecides.unique hdecides'
    rw [hlatest.unique hlatest']

theorem find?_eq_none_iff :
    factories.find? locator = none ↔
      ∀ beginning ∈ registrations.map Prod.fst, ¬beginning.toList <+: locator.path.toList := by
  rw [find?, List.find?_eq_none]
  constructor
  · intro hnone beginning hbeginning hfits
    rw [← h.mem_beginnings_iff] at hbeginning
    obtain ⟨entry, hmem, rfl⟩ := List.mem_map.mp hbeginning
    exact hnone entry hmem (Locator.startsWith_iff.mpr hfits)
  · intro hnone entry hmem hfits
    have hbeginning := h.mem_beginnings_iff.mp (List.mem_map_of_mem hmem)
    exact hnone entry.1 hbeginning (Locator.startsWith_iff.mp hfits)

end Keeps

end Factories

/-! ### What is opened -/

/-- A network chain: a remote source with retries, the blocks of which are kept on disk if there is
a directory for them, and in memory in any case. -/
inductive Chain.IsNetwork (config : Config) (transport : Option (Transport η)) (locator : Locator) :
    Chain η → Prop where
  | unstored (hoff : config.effectiveCacheDirectory = none) :
      IsNetwork config transport locator
        (.memoryCached config.memory (.retrying config.retry (.remote locator transport)))
  | stored {directory : String} (store : Option FilePath.Key)
      (hon : config.effectiveCacheDirectory = some directory) :
      IsNetwork config transport locator
        (.memoryCached config.memory
          (.diskCached store (.retrying config.retry (.remote locator transport))))

namespace Opener

theorem isNetwork_openLayer (opener : Opener η) (hnetwork : locator.isNetwork = true)
    (world : World η) :
    Chain.IsNetwork opener.config opener.transport locator
      (opener.openLayer locator world).1.chain := by
  cases hdirectory : opener.config.effectiveCacheDirectory with
  | none =>
    rw [openLayer_of_off hnetwork hdirectory]
    exact .unstored hdirectory
  | some directory =>
    rw [openLayer_of_on hnetwork hdirectory rfl]
    exact .stored _ hdirectory

/-- **What is opened depends on what was registered, in the order of the first registrations.**
Whatever has been registered, each beginning is listed once, in that order, with its latest factory.
Unless the network is asked, which no factory has a say in, a locator goes to the factory of the
first beginning in that order which its path starts with, and without one to the file system. -/
theorem opens_registered (registrations : List (String × Factory η)) (config : Config)
    (transport : Option (Transport η)) :
    let factories := Factories.ofRegistrations registrations
    let opener : Opener η := { factories, config, transport }
    factories.Keeps registrations ∧ factories.beginnings.Nodup ∧
      (∀ beginning, beginning ∈ factories.beginnings ↔ beginning ∈ registrations.map Prod.fst) ∧
      factories.size = factories.beginnings.length ∧
      ∀ locator : Locator,
        (∀ beginning factory, factories.find? locator = some (beginning, factory) ↔
          Factories.Decides registrations locator beginning ∧
            Factories.IsLatest registrations beginning factory) ∧
        (factories.find? locator = none ↔
          ∀ beginning ∈ registrations.map Prod.fst, ¬beginning.toList <+: locator.path.toList) ∧
        (locator.isNetwork = true →
          (∀ world,
            Chain.IsNetwork config transport locator (opener.openLayer locator world).1.chain) ∧
          ∀ others,
            { opener with factories := others }.openLayer locator = opener.openLayer locator) ∧
        (locator.isNetwork = false →
          (∀ beginning factory, Factories.Decides registrations locator beginning →
            Factories.IsLatest registrations beginning factory →
            opener.openLayer locator = factory locator) ∧
          ((∀ beginning ∈ registrations.map Prod.fst,
              ¬beginning.toList <+: locator.path.toList) →
            opener.openLayer locator = Layer.openFile locator)) := by
  intro factories opener
  have hkeeps := Factories.keeps_ofRegistrations registrations
  refine ⟨hkeeps, hkeeps.nodup, fun _ => hkeeps.mem_beginnings_iff, ?_, fun locator =>
    ⟨fun _ _ => hkeeps.find?_eq_some_iff, hkeeps.find?_eq_none_iff, fun hnetwork => ?_,
      fun hlocal => ⟨fun beginning factory hdecides hlatest => ?_, fun hnone => ?_⟩⟩⟩
  · rw [Factories.size, Factories.beginnings, List.length_map]
  · refine ⟨opener.isNetwork_openLayer hnetwork, fun others => ?_⟩
    rw [openLayer, openLayer, if_pos hnetwork, if_pos hnetwork]
    rfl
  · have hfind : opener.factories.find? locator = some (beginning, factory) :=
      hkeeps.find?_eq_some_iff.mpr ⟨hdecides, hlatest⟩
    rw [openLayer, hlocal, hfind]
    rfl
  · have hfind : opener.factories.find? locator = none := hkeeps.find?_eq_none_iff.mpr hnone
    rw [openLayer, hlocal, hfind]
    rfl

/-- Opens a source of one byte for every locator. -/
def oneByte (byte : UInt8) : Factory Unit := fun locator =>
  pure (.supplied (.ofContent locator [byte]))

/-- A beginning with a longer one and the empty one behind it is registered again, and keeps its
place. -/
theorem opens_registered_again :
    let registrations :=
      [("doc://", oneByte 1), ("doc://media", oneByte 2), ("", oneByte 3), ("doc://", oneByte 4)]
    let factories := Factories.ofRegistrations registrations
    let opener : Opener Unit := { factories, config := .standard "/cache", transport := none }
    let document : Locator := { scheme := .custom "doc://", path := "doc://media/game.iso" }
    let file := Locator.ofPath "/game.iso"
    let address := Locator.ofPath "http://host/game.iso"
    factories.beginnings = ["doc://", "doc://media", ""] ∧
      document.isNetwork = false ∧ Factories.Decides registrations document "doc://" ∧
      Factories.IsLatest registrations "doc://" (oneByte 4) ∧
      factories.find? document = some ("doc://", oneByte 4) ∧
      opener.openLayer document = oneByte 4 document ∧
      (factories.find? file).map Prod.fst = some "" ∧
      address.isNetwork = true ∧ (factories.find? address).map Prod.fst = some "" ∧
      (∀ world,
        Chain.IsNetwork opener.config none address (opener.openLayer address world).1.chain) ∧
      { opener with factories := {} }.openLayer file = Layer.openFile file := by
  intro registrations factories opener document file address
  have hlatest : Factories.IsLatest registrations "doc://" (oneByte 4) := rfl
  have hdecides : Factories.Decides registrations document "doc://" := by
    refine ⟨by simp [registrations], by decide, fun other hother _ => ?_⟩
    by_cases hother : other = "doc://"
    · exact .inl hother
    · exact .inr ⟨registrations.take 1, List.take_prefix _ _, by simp [registrations],
        by simpa [registrations] using hother⟩
  obtain ⟨-, -, -, -, hopens⟩ := opens_registered registrations opener.config none
  obtain ⟨hfind, -, -, hlocal⟩ := hopens document
  obtain ⟨-, -, hnetwork, -⟩ := hopens address
  obtain ⟨-, -, -, -, hempty⟩ := opens_registered (η := Unit) [] opener.config none
  obtain ⟨-, -, -, hfile⟩ := hempty file
  exact ⟨by decide, rfl, hdecides, hlatest, (hfind _ _).mpr ⟨hdecides, hlatest⟩,
    (hlocal rfl).1 _ _ hdecides hlatest, by decide, rfl, by decide, (hnetwork rfl).1,
    (hfile rfl).2 (by simp)⟩

end Opener

end PspBoot
