import WireCatalog.Proofs.KnownClasses

/-! # Discovery by wire key and class

A request by wire key and class ends in one of two ways (`fromIdAs_cases`). Either the catalogue
`Settles` it from then on: it has the answer by the key, or by the name of the class, which it has
remembered then. Or the catalogue is `Crowded` for it: nothing is found and the next two provisional
names are taken, so the answer is detached.

If nothing is found, nothing is there that the request would describe again
(`equivalent?_discovered`), and the only alias it wants is free. So the names are all that can stop
its registration (`publish_discovered`). -/

namespace WireCatalog

namespace Catalogue

variable {c c' : Catalogue} {k : WireKey} {cls : ClassName} {x : PacketType}

/-! ### Requests that are settled -/

/-- Whether a catalogue answers a request with a packet type and has nothing to learn from it. -/
def Settles (c : Catalogue) (k : WireKey) (cls : ClassName) (x : PacketType) : Prop :=
  c.resolveCurrent k = some x ∨
    c.resolveCurrent k = none ∧ c.resolveName k.channel cls.simple = some x ∧
      c.binder.remember cls x = c.binder

namespace Settles

theorem mem_entries (h : c.Settles k cls x) (hc : c.snapshot.Coherent) :
    x ∈ (c.directories.get k.channel).entries := by
  rcases h with hk | ⟨_, hn, _⟩
  · exact hc.mem_of_byKey? hk
  · exact hc.mem_of_byName? hn

theorem again (h : c.Settles k cls x) (fate : Fate) :
    (c.fromIdAs fate k cls).1 = x ∧ (c.fromIdAs fate k cls).2.snapshot = c.snapshot ∧
      (c.fromIdAs fate k cls).2.binder = c.binder := by
  rcases h with hk | ⟨hk, hn, hb⟩
  · rw [fromIdAs_of_resolveCurrent fate hk]
    exact ⟨rfl, rfl, rfl⟩
  · rw [fromIdAs_of_resolveName fate hk hn]
    exact ⟨rfl, rfl, hb⟩

end Settles

/-! ### Requests that find nothing -/

/-- Whether nothing is found for a request and the next two provisional names are taken. -/
def Crowded (c : Catalogue) (k : WireKey) (cls : ClassName) : Prop :=
  c.resolveCurrent k = none ∧ c.resolveName k.channel cls.simple = none ∧
    ((c.directories.get k.channel).byName? (c.registry.names c.registry.drawn)).isSome ∧
    ((c.directories.get k.channel).byName? (c.registry.names (c.registry.drawn + 1))).isSome

theorem composed_discovered (c : Catalogue) (k : WireKey) (cls : ClassName) :
    (c.discovered k cls).Composed :=
  (((Declaration.Composed.named _ _).withId _).withVersion _).asDynamic

/-- If the name of a class leads nowhere, its canonical form is bound to nothing. -/
theorem bound?_of_resolveName (hn : c.resolveName k.channel cls.simple = none) :
    c.index.bound? k.channel (PacketName.format k.channel cls.simple) = none := by
  rw [resolveName, Index.byName?, Option.or_eq_none_iff] at hn
  exact hn.1

/-- A request that finds nothing describes no entry again. -/
theorem equivalent?_discovered (hc : c.snapshot.Coherent) (hk : c.resolveCurrent k = none)
    (hn : c.resolveName k.channel cls.simple = none) :
    (c.directories.get k.channel).equivalent? (c.discovered k cls) = none := by
  have hkey : (c.discovered k cls).key = k := rfl
  by_cases hknown : k.isKnown = true
  · rw [Directory.equivalent?, hkey, if_pos hknown]
    exact (hc.byKey? k).symm.trans hk
  · -- Without an id the name of the class is compared, and an entry that has it would be found.
    have hlegacy : (c.discovered k cls).legacyId = unknownId := rfl
    rw [Directory.equivalent?, hkey, if_neg hknown, hlegacy, if_neg (not_not_intro rfl),
      List.find?_eq_none]
    intro y hy hdescribed
    have hchannel : y.channel = k.channel := hc.sound.channel_of_mem hy
    have hcanonical := (List.cons.inj (c.aliases_discovered k cls)).1
    rw [hcanonical] at hdescribed
    simp only [Bool.and_eq_true, PacketType.hasAlias, decide_eq_true_eq] at hdescribed
    have hbound := hc.isSome_bound? (hchannel ▸ hy) (.inr hdescribed.2)
    rw [hchannel] at hbound
    have hfree := bound?_of_resolveName hn
    rw [index] at hfree
    rw [hfree] at hbound
    cases hbound

/-- The registration of what is found nowhere fails only if two names in a row are taken. -/
theorem publish_discovered (hc : c.snapshot.Coherent) (hk : c.resolveCurrent k = none)
    (hn : c.resolveName k.channel cls.simple = none) :
    (c.Crowded k cls ∧ ∃ e, (c.publish (c.discovered k cls)).1 = .error e) ∨
      (¬c.Crowded k cls ∧ ∃ x, x.toDeclaration = c.discovered k cls ∧
        (c.publish (c.discovered k cls)).1 = .ok (.published x)) := by
  have hspec := Registry.publish_spec (r := c.registry) hc (c.composed_discovered k cls)
  have hnew : (c.registry.snapshot.directories.get (c.discovered k cls).channel).equivalent?
      (c.discovered k cls) = none := equivalent?_discovered hc hk hn
  have hfree : c.registry.snapshot.index.firstBound? (c.discovered k cls).channel
      (c.discovered k cls).aliases = none := by
    have hbound : c.registry.snapshot.index.bound? (c.discovered k cls).channel
        (PacketName.format k.channel cls.simple) = none := bound?_of_resolveName hn
    rw [aliases_discovered, Index.firstBound?, List.findSome?_cons, hbound]
    rfl
  dsimp only at hspec
  rw [hnew, hfree] at hspec
  obtain ⟨_, hresult⟩ := hspec
  have hcrowded : c.Crowded k cls ↔
      [c.registry.names c.registry.drawn, c.registry.names (c.registry.drawn + 1)].find?
        (fun n => ((c.registry.snapshot.directories.get k.channel).byName? n).isNone) = none := by
    rw [Crowded, and_iff_right hk, and_iff_right hn, List.find?_eq_none]
    simp [directories, snapshot, Option.isSome_iff_ne_none]
  split at hresult
  · rename_i htaken
    obtain ⟨y, _, hresult⟩ := hresult
    exact .inl ⟨hcrowded.mpr htaken, _, hresult⟩
  · rename_i n htried
    right
    refine ⟨fun h => ?_, _, rfl, hresult⟩
    cases (hcrowded.mp h).symm.trans htried

/-- A request is settled once what it describes is listed and its class is remembered. -/
theorem settles_of_mem_enumerate (hc : c'.snapshot.Coherent) (he : c'.directories.Exclusive)
    (hx : x ∈ c'.enumerate true) (hdecl : x.toDeclaration = c.discovered k cls)
    (hb : c'.binder.remember cls x = c'.binder) : c'.Settles k cls x := by
  have hkey : x.key = k := congrArg Declaration.key hdecl
  by_cases hknown : k.isKnown = true
  · rw [← hkey] at hknown ⊢
    exact .inl (hc.byKey?_self hx hknown)
  · have halias : PacketName.format x.channel cls.simple ∈ x.aliases := by
      rw [hdecl, aliases_discovered]
      exact List.mem_singleton_self _
    have hname := hc.byName?_of_format_mem he hx halias
    refine .inr ⟨?_, ?_, hb⟩
    · have hunknown : k.id = unknownId := not_not.mp (mt (WireKey.isKnown_iff k).mpr hknown)
      rw [resolveCurrent, index, hc.byKey?, Directory.byId?, if_pos hunknown]
    · rw [← hkey]
      exact hname

/-- A request is settled after it was answered, unless nothing is found and the names run out. -/
theorem fromIdAs_cases (h : c.Reachable) (fate : Fate) (k : WireKey) (cls : ClassName) :
    let x := (c.fromIdAs fate k cls).1
    let c' := (c.fromIdAs fate k cls).2
    (¬c.Crowded k cls ∧ c'.Settles k cls x) ∨
      (c.Crowded k cls ∧ x.channel = k.channel ∧ x ∉ c'.enumerate true ∧
        c'.snapshot = c.snapshot ∧ c'.binder = c.binder) := by
  intro x c'
  have hc' : c'.Reachable := h.step fate (.fromId k cls)
  cases hk : c.resolveCurrent k with
  | some y =>
      have hanswer : c.fromIdAs fate k cls = (y, c) := fromIdAs_of_resolveCurrent fate hk
      left
      refine ⟨fun hcrowded => ?_, ?_⟩
      · cases hk.symm.trans hcrowded.1
      · simp only [x, c', hanswer]
        exact .inl hk
  | none =>
      cases hn : c.resolveName k.channel cls.simple with
      | some y =>
          have hanswer := fromIdAs_of_resolveName fate hk hn
          left
          refine ⟨fun hcrowded => ?_, ?_⟩
          · cases hn.symm.trans hcrowded.2.1
          · simp only [x, c', hanswer]
            exact .inr ⟨hk, hn, c.binder.remember_remember cls y⟩
      | none =>
          rcases publish_discovered h.coherent hk hn with ⟨hcrowded, e, he⟩ | ⟨hfree, y, hy, hp⟩
          · have hrefuses : c.Refuses (.fromId k cls) := ⟨by simp [found?, hk, hn], e, he⟩
            have hanswered := c.fromIdAs_answered fate k cls
            obtain ⟨hx, _, _, hsnapshot, hbinder⟩ := hanswered.of_refuses hrefuses
            right
            refine ⟨hcrowded, ?_, hanswered.notMem_enumerate h.numbered hrefuses, hsnapshot, hbinder⟩
            exact congrArg Declaration.channel hx
          · obtain ⟨es, hresult⟩ := fromIdAs_of_miss fate hk hn
            rw [← fst_publish_log c es] at hp
            have hlisted := Registry.mem_enumerate_of_publish hp
            simp only [hp] at hresult
            obtain ⟨hx, hregistry, hbinder⟩ := hresult
            rw [← hregistry] at hlisted
            left
            simp only [x, hx]
            refine ⟨hfree, settles_of_mem_enumerate hc'.coherent hc'.exclusive hlisted hy ?_⟩
            rw [hbinder]
            exact c.binder.remember_remember cls y

/-- **Discovery settles a request.** The answer to a request by wire key and class is of the channel
that was asked for. It is listed, unless neither the key nor the name of the class was found and the
next two provisional names were taken: then the snapshot and the known classes are as they were. A
request that got a listed answer gets it again, and changes neither the snapshot nor the known
classes then. -/
theorem discovery_settles {c : Catalogue} (h : c.Reachable) (fate fate' : Fate) (k : WireKey)
    (cls : ClassName) :
    let x := (c.fromIdAs fate k cls).1
    let c' := (c.fromIdAs fate k cls).2
    let again := c'.fromIdAs fate' k cls
    x.channel = k.channel ∧ (x ∈ c'.enumerate true ↔ ¬c.Crowded k cls) ∧
      (c.Crowded k cls → c'.snapshot = c.snapshot ∧ c'.binder = c.binder) ∧
      (x ∈ c'.enumerate true →
        again.1 = x ∧ again.2.snapshot = c'.snapshot ∧ again.2.binder = c'.binder) := by
  intro x c' again
  have hc' : c'.Reachable := h.step fate (.fromId k cls)
  rcases fromIdAs_cases h fate k cls with
    ⟨hfree, hsettles⟩ | ⟨hcrowded, hchannel, hdetached, hsame⟩
  · have hentry := hsettles.mem_entries hc'.coherent
    have hlisted : x ∈ c'.enumerate true := DirectorySet.mem_enumerate.mpr ⟨_, hentry⟩
    exact ⟨hc'.coherent.sound.channel_of_mem hentry, iff_of_true hlisted hfree,
      fun hcrowded => absurd hcrowded hfree, fun _ => hsettles.again fate'⟩
  · exact ⟨hchannel, iff_of_false hdetached (not_not_intro hcrowded), fun _ => hsame,
      fun hlisted => absurd hlisted hdetached⟩

/-- The first name is free for what the built-in packet types of a plan miss. -/
theorem not_crowded_of_misses {p : Plan} {a b : Call} (h : p.Misses a b) :
    ¬(p.buildLenient []).Crowded a.key a.cls := by
  obtain ⟨hdirs, hnames, hdrawn⟩ := p.buildLenient_start []
  rintro ⟨_, _, hfirst, _⟩
  have hfree : (p.enrolled.1.set.get a.key.channel).byName? (p.names 0) = none := h.2.2.1
  rw [hdirs, hnames, hdrawn, hfree] at hfirst
  cases hfirst

/-- An id and a class that are met for the first time lead to the same packet type from then on. -/
theorem discovery_settles_mystery : (countingPlan.buildLenient []).Reachable ∧
    ∃ x c', (countingPlan.buildLenient []).fromIdAs .inline (mysteries false).key
        (mysteries false).cls = (x, c') ∧ x ∈ c'.enumerate true ∧
      (c'.fromIdAs .queued (mysteries false).key (mysteries false).cls).1 = x := by
  have hreachable : (countingPlan.buildLenient []).Reachable := .builtLenient _ _
  have hfree := not_crowded_of_misses misses_mysteries
  generalize countingPlan.buildLenient [] = c at hreachable hfree ⊢
  obtain ⟨_, hlisted, _, hagain⟩ := discovery_settles hreachable .inline .queued
    (mysteries false).key (mysteries false).cls
  generalize c.fromIdAs .inline (mysteries false).key (mysteries false).cls = p at hlisted hagain ⊢
  obtain ⟨x, c'⟩ := p
  exact ⟨hreachable, x, c', rfl, hlisted.mpr hfree, (hagain (hlisted.mpr hfree)).1⟩

end Catalogue

end WireCatalog
