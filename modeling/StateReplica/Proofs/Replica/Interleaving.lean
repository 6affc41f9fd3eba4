import StateReplica.Proofs.Replica.Outcomes

/-!
Notices of different subjects. A notice about a bundle, one about a service and one about the framework
act on different parts of the contents, so that it does not matter how notices of the three subjects
are mixed as long as those of one subject keep their order: every mixture leaves the same contents and
the same generation (`mixed_notices_agree`).

The notices about one subject may depend on each other, and nothing is said of their order.
-/

namespace StateReplica

open Replica (Step)

/-- Ways to mix notices about bundles, about services and about the framework, each in their order. -/
inductive Event.Mixes :
    List BundleEvent → List ServiceEvent → List FrameworkEvent → List Event → Prop
  | nil : Mixes [] [] [] []
  | bundle {bs ss fs events} (b : BundleEvent) :
      Mixes bs ss fs events → Mixes (b :: bs) ss fs (.bundle b :: events)
  | service {bs ss fs events} (s : ServiceEvent) :
      Mixes bs ss fs events → Mixes bs (s :: ss) fs (.service s :: events)
  | framework {bs ss fs events} (f : FrameworkEvent) :
      Mixes bs ss fs events → Mixes bs ss (f :: fs) (.framework f :: events)

namespace Event.Mixes

variable {bs : List BundleEvent} {ss : List ServiceEvent} {fs : List FrameworkEvent}
  {events : List Event}

/-- Every notice is about a bundle, a service or the framework. -/
theorem length_eq (h : Mixes bs ss fs events) :
    events.length = bs.length + ss.length + fs.length := by
  induction h with
  | nil => rfl
  | bundle b _ ih => rw [List.length_cons, List.length_cons, ih]; omega
  | service s _ ih => rw [List.length_cons, List.length_cons, ih]; omega
  | framework f _ ih => rw [List.length_cons, List.length_cons, ih]; omega

end Event.Mixes

namespace Contents

/-- The contents after notices about bundles, about services and about the framework, where each part
is changed by the notices about it alone. -/
def applyParts (consistency : BundleConsistency) (c : Contents) (bs : List BundleEvent)
    (ss : List ServiceEvent) (fs : List FrameworkEvent) : Contents where
  framework := (fs.getLast?.map (·.framework)).getD c.framework
  bundles := bs.foldl (fun t e => t.apply consistency e) c.bundles
  services := ss.foldl (fun t e => t.apply e) c.services
  configurations := c.configurations

variable (consistency : BundleConsistency) (c : Contents)

/-- A notice about the framework makes no difference to what is later said of the framework. -/
theorem applyParts_framework (bs : List BundleEvent) (ss : List ServiceEvent)
    (fs : List FrameworkEvent) (f : FrameworkEvent) :
    (c.apply consistency (.framework f)).applyParts consistency bs ss fs =
      c.applyParts consistency bs ss (f :: fs) := by
  cases fs with
  | nil => rfl
  | cons next fs =>
    rw [applyParts, applyParts, List.getLast?_cons_cons, List.getLast?_cons]
    rfl

/-- **Mixed notices change each part by the notices about it**, whatever the contents are. -/
theorem foldl_mixes {bs : List BundleEvent} {ss : List ServiceEvent} {fs : List FrameworkEvent}
    {events : List Event} (h : Event.Mixes bs ss fs events) :
    events.foldl (Contents.apply consistency) c = c.applyParts consistency bs ss fs := by
  induction h generalizing c with
  | nil => rfl
  | bundle b _ ih =>
    rw [List.foldl_cons, ih]
    rfl
  | service s _ ih =>
    rw [List.foldl_cons, ih]
    rfl
  | framework f _ ih => rw [List.foldl_cons, ih, applyParts_framework]

end Contents

/-- **A loaded replica does not mind how notices of different subjects are mixed.** Whatever the
mixture, it holds what each of its parts becomes by the notices about it and has counted every notice,
so that two mixtures are answered for alike. -/
theorem mixed_notices_agree {κ : Type} {r : Replica κ} {c : Contents} (loaded : r.contents = some c)
    (bs : List BundleEvent) (ss : List ServiceEvent) (fs : List FrameworkEvent) :
    (∀ events, Event.Mixes bs ss fs events →
      (r.run (events.map .notice)).contents =
          some (c.applyParts r.config.bundleConsistency bs ss fs) ∧
        (r.run (events.map .notice)).generation =
          r.generation + .ofNat (bs.length + ss.length + fs.length)) ∧
      ∀ events events', Event.Mixes bs ss fs events → Event.Mixes bs ss fs events' →
        (∀ query, (r.run (events.map .notice)).ask query = (r.run (events'.map .notice)).ask query) ∧
          (r.run (events.map .notice)).generation = (r.run (events'.map .notice)).generation := by
  have parts (events) (mixed : Event.Mixes bs ss fs events) :
      (r.run (events.map .notice)).contents =
          some (c.applyParts r.config.bundleConsistency bs ss fs) ∧
        (r.run (events.map .notice)).generation =
          r.generation + .ofNat (bs.length + ss.length + fs.length) := by
    refine ⟨?_, ?_⟩
    · rw [r.contents_notices, loaded, Option.map_some, Contents.foldl_mixes _ _ mixed]
    · have isLoaded : r.isLoaded = true := by rw [Replica.isLoaded, loaded]; rfl
      rw [r.generation_notices, if_pos isLoaded, mixed.length_eq]
  refine ⟨parts, fun events events' mixed mixed' => ⟨fun query => ?_, ?_⟩⟩
  · rw [Replica.ask, Replica.ask, (parts events mixed).1, (parts events' mixed').1]
  · rw [(parts events mixed).2, (parts events' mixed').2]

/-- So it is for a legacy replica where a bundle that brings a service along is changed and taken away,
while that service is registered and unregistered. -/
theorem mixed_notices_agree_crossed :
    let s : ServiceRecord := .withClass (.new 7 1) "k"
    let b : BundleRecord := .withServices (.new 1 "a" .active) [s]
    let fetched : Fetched := ⟨.blank, [b], []⟩
    let legacy : Replica Unit := (Replica.new ⟨none, .legacy, false⟩).run [.reload (.ok fetched)]
    let changed : BundleEvent := .changed .updated b
    let registered : ServiceEvent := ⟨.registered, s⟩
    let unregistering : ServiceEvent := ⟨.unregistering, s⟩
    let framework : FrameworkEvent := ⟨.new "2" 5⟩
    let events : List Event := [.bundle changed, .service registered, .framework framework,
      .bundle (.uninstalled 1), .service unregistering]
    let events' : List Event := [.service registered, .service unregistering, .bundle changed,
      .bundle (.uninstalled 1), .framework framework]
    legacy.contents = some (.ofFetched fetched) ∧
      Event.Mixes [changed, .uninstalled 1] [registered, unregistering] [framework] events ∧
      Event.Mixes [changed, .uninstalled 1] [registered, unregistering] [framework] events' ∧
      (∀ query, (legacy.run (events.map .notice)).ask query =
        (legacy.run (events'.map .notice)).ask query) ∧
      (legacy.run (events.map .notice)).generation = 6 := by
  intro s b fetched legacy changed registered unregistering framework events events'
  have loaded : legacy.contents = some (.ofFetched fetched) := rfl
  have mixed : Event.Mixes [changed, .uninstalled 1] [registered, unregistering] [framework] events :=
    .bundle _ <| .service _ <| .framework _ <| .bundle _ <| .service _ .nil
  have mixed' :
      Event.Mixes [changed, .uninstalled 1] [registered, unregistering] [framework] events' :=
    .service _ <| .service _ <| .bundle _ <| .bundle _ <| .framework _ .nil
  obtain ⟨parts, agree⟩ := mixed_notices_agree loaded [changed, .uninstalled 1]
    [registered, unregistering] [framework]
  exact ⟨loaded, mixed, mixed', (agree events events' mixed mixed').1, (parts events mixed).2⟩

end StateReplica
