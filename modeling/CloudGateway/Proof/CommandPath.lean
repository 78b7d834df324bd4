import CloudGateway.Proof.Dealing
import CloudGateway.Proof.Program

/-!
# From the broker to the vehicles

The path of a command through `main`: the MQTT thread receives a message, the router
and the orchestrator make a command of it, and a stream takes it to the vehicle, now
or when there is one. What is received is what the actions of a run bring; what is
pushed are the commands of it; and what is pushed is dealt out to the connections.
-/

namespace CloudGateway.Proof

open Services Transport Proto Constants Reactive

variable [JsonLibrary]

/-- The message an action brings. -/
def messageOf : Program.Action → List Message
  | .receive m => [m]
  | _ => []

/-! ## What is received -/

omit [JsonLibrary] in
theorem mqttAction_messageOf {a : Program.Action} {b : Gateway.Action} (h : mqttAction a = some b) :
    (∃ x, b = .client x ∧ messageOf a = []) ∨ ∃ m, b = .receive m ∧ messageOf a = [m] := by
  cases a with
  | run => exact .inl ⟨.run, (Option.some.inj h).symm, rfl⟩
  | receiveError => exact .inl ⟨.error, (Option.some.inj h).symm, rfl⟩
  | receive m => exact .inr ⟨m, (Option.some.inj h).symm, rfl⟩
  | _ => exact absurd h (by simp [mqttAction])

theorem received_mqtt {p : Program} {a : Program.Action} {b : Gateway.Action} {g : Gateway}
    (ha : mqttAction a = some b) (hg : p.gateway.step b = some g) :
    g.received = p.gateway.received ++ messageOf a := by
  obtain ⟨_, hcase⟩ := gateway_step_cases hg
  rcases mqttAction_messageOf ha with ⟨x, rfl, hm⟩ | ⟨m, rfl, hm⟩
  · rw [hm, List.append_nil]
    cases hcase with
    | client hc => rfl
  · rw [hm]
    cases hcase with
    | command hc hm => rfl
    | rejected hc hm => rfl

theorem received_step {cfg : Settings} {p p' : Program} {a : Program.Action}
    (h : ProgramStep cfg p a p') :
    p'.gateway.received = p.gateway.received ++ messageOf a := by
  cases h with
  | mqtt ha hg => exact received_mqtt ha hg
  | returned hn hg =>
      obtain ⟨_, hcase⟩ := gateway_step_cases hg
      cases hcase with
      | client hc => exact (List.append_nil _).symm
  | loggedIn hn hw ht => rw [deliver_gateway]; exact (List.append_nil _).symm
  | located hl ht => rw [deliver_gateway]; exact (List.append_nil _).symm
  | completed hs hg =>
      rw [deliver_gateway]
      obtain ⟨_, hcase⟩ := gateway_step_cases hg
      cases hcase with
      | complete hw => exact (List.append_nil _).symm
  | _ => exact (List.append_nil _).symm

/-- **What has been received is what the actions have brought.** -/
theorem received_run {cfg : Settings} {config : Config} {p t : Program}
    {as : List Program.Action} (hr : (Program.machine cfg config).Reachable p)
    (h : (Program.machine cfg config).run p as = some t) :
    t.gateway.received = p.gateway.received ++ as.flatMap messageOf := by
  refine Machine.Reachable.run_rule (M := Program.machine cfg config)
    (P := fun p as t => t.gateway.received = p.gateway.received ++ as.flatMap messageOf)
    ?_ ?_ hr (fun _ _ => trivial) h
  · intro p
    rw [List.flatMap_nil, List.append_nil]
  · intro p a p' as t hp _ hstep hrest
    rw [hrest, received_step (program_step hp hstep), List.flatMap_cons, List.append_assoc]

/-! ## Nobody is connected before the server is started -/

omit [JsonLibrary] in
theorem pushCommand_accepted (w : World) (cmd : GatewayCommand) :
    (w.pushCommand cmd).accepted = w.accepted := by
  rcases Option.eq_none_or_eq_some w.active with ha | ⟨h, ha⟩
  · rw [pushCommand_none ha]
  · rw [pushCommand_some ha, World.enqueue]
    split <;> rfl

/-- A step that leaves the server unstarted has found it so, and accepts nobody. -/
theorem unserving_step {cfg : Settings} {p p' : Program} {a : Program.Action}
    (h : ProgramStep cfg p a p') (hs : p'.serving = false) :
    p.serving = false
      ∧ p'.gateway.trips.world.accepted = p.gateway.trips.world.accepted := by
  have hearlier : ∀ {here}, p.next = here → here ≠ .wait → here ≠ .returned →
      p.serving = false := by
    intro here hn hwait hreturned
    simp [Program.serving, hn, hwait, hreturned]
  cases h with
  | declared hn => exact ⟨hearlier hn (by simp) (by simp), rfl⟩
  | setup hn hw => exact ⟨hearlier hn (by simp) (by simp), rfl⟩
  | created hn hw => exact ⟨hearlier hn (by simp) (by simp), rfl⟩
  | refused hn hw => exact ⟨hearlier hn (by simp) (by simp), rfl⟩
  | loggedIn hn hw ht =>
      rw [deliver_gateway]
      exact ⟨hearlier hn (by simp) (by simp), rfl⟩
  | thrown hn hw ht => exact ⟨hearlier hn (by simp) (by simp), rfl⟩
  | served hn => exact absurd hs (by simp [Program.serving])
  | returned hn hg => exact absurd hs (by simp [Program.serving])
  | @mqtt a b g ha hg =>
      refine ⟨hs, ?_⟩
      obtain ⟨_, hcase⟩ := gateway_step_cases hg
      cases hcase with
      | command hc hm => exact pushCommand_accepted _ _
      | rejected hc hm => rfl
      | client hc => rfl
      | complete hw =>
          rcases mqttAction_messageOf ha with ⟨x, hb, _⟩ | ⟨m, hb, _⟩
          · exact absurd hb (by simp)
          · exact absurd hb (by simp)
  | located hl ht =>
      rw [Program.serving, deliver_next] at hs
      rw [deliver_gateway]
      exact ⟨hs, rfl⟩
  | unlocated hl ht => exact ⟨hs, rfl⟩
  | completed hserving hg =>
      rw [Program.serving, deliver_next] at hs
      exact absurd (hserving.symm.trans hs) (by simp)
  | replaced => exact ⟨hs, rfl⟩

theorem unserving_reachable {cfg : Settings} {config : Config} {p : Program}
    (h : (Program.machine cfg config).Reachable p) :
    p.serving = false → p.gateway.trips.world.accepted = [] :=
  h.invariant (P := fun p => p.serving = false → p.gateway.trips.world.accepted = [])
    (fun _ => rfl)
    (fun p a p' hr hp _ hstep hs => by
      obtain ⟨hbefore, hsame⟩ := unserving_step (program_step hr hstep) hs
      rw [hsame]
      exact hp hbefore)

/-! ## The path -/

omit [JsonLibrary] in
/-- What goes with a list goes, in part, with any part of it. -/
theorem sublistForall₂_of_sublist {α β : Type} {R : α → β → Prop} {xs ys : List α} {ms : List β}
    (hsub : xs.Sublist ys) (h : List.Forall₂ R ys ms) : List.SublistForall₂ R xs ms := by
  induction hsub generalizing ms with
  | slnil => exact .nil
  | cons y _ ih =>
      cases h with
      | cons hy hys => exact .cons_right (ih hys)
  | cons_cons y _ ih =>
      cases h with
      | cons hy hys => exact .cons hy (ih hys)

/-- **The commands pushed are those of the messages accepted.** -/
theorem PartsReached.pushed {config : Config} {p : Program} (h : PartsReached config p) :
    List.Forall₂ Carries (p.gateway.received.filter (fun m => accepts m))
      p.gateway.trips.world.pushed := by
  obtain ⟨g, hg, heq⟩ := h.gateway
  rw [heq]
  exact (delivered_reachable hg).pushed

/--
**Every command takes one way, and in order.** Take any run of `main` and its threads,
with connections that come, overlap and fail. The messages of the run that are commands
are, in the order of their arrival, the blocks given to the connections in the order
of their accepts, and then what waits for the next one; before the server is started
all of it waits. So what has been written to the vehicles, over all connections,
belongs to the messages in the order of their arrival, and none of them has been
written twice.
-/
theorem commands_reach_vehicles {cfg : Settings} {config : Config} {as : List Program.Action}
    {t : Program} (h : (Program.machine cfg config).run (.start config) as = some t) :
    ∃ blocks : List (List GatewayCommand),
      List.Forall₂ Carries ((as.flatMap messageOf).filter (fun m => accepts m))
          (blocks.flatten ++ t.gateway.trips.world.pendingCommands)
        ∧ List.Forall₂ (DealtTo t.gateway.trips.world.conns) t.gateway.trips.world.accepted blocks
        ∧ t.gateway.trips.world.accepted.Nodup
        ∧ (t.serving = false → blocks = [])
        ∧ List.SublistForall₂ (fun cmd m => Carries m cmd)
            (t.gateway.trips.world.accepted.flatMap (writtenAt t.gateway.trips.world.conns))
            (as.flatMap messageOf) := by
  have hr : (Program.machine cfg config).Reachable t := Machine.reachable_of_run h
  have hparts := partsReached_reachable hr
  have hreceived : t.gateway.received = as.flatMap messageOf := received_run .init h
  have hpushed := hparts.pushed
  rw [hreceived] at hpushed
  obtain ⟨blocks, hblocks, hdealt, _⟩ := exists_blocks hparts.world
  refine ⟨blocks, hblocks ▸ hpushed, hdealt, accepted_once hparts.world, ?_, ?_⟩
  · intro hs
    rw [unserving_reachable hr hs] at hdealt
    exact List.forall₂_nil_left_iff.mp hdealt
  · -- what is written is part of what is pushed, and that belongs to part of what came
    have hpart := sublistForall₂_of_sublist (written_sublist hparts.world) hpushed.flip
    obtain ⟨ms, hms, hsub⟩ := List.sublistForall₂_iff.mp hpart
    exact List.sublistForall₂_iff.mpr ⟨ms, hms, hsub.trans List.filter_sublist⟩

omit [JsonLibrary] in
/-- A command that waits for the server, one to a connection, and one when that is gone. -/
theorem commands_reach_vehicles_waiting :
    ∃ (_ : JsonLibrary) (as : List Program.Action) (t : Program),
      (Program.machine {} {}).run (.start {}) as = some t
        ∧ t.gateway.trips.world.accepted.flatMap (writtenAt t.gateway.trips.world.conns)
          = [.orderUpdateStatus ⟨"V1"⟩, .orderUpdateLocation ⟨"V2"⟩]
        ∧ t.gateway.trips.world.pendingCommands = [.orderUpdateStatus ⟨"V1"⟩]
        ∧ List.SublistForall₂ (fun cmd m => Carries m cmd)
            (t.gateway.trips.world.accepted.flatMap (writtenAt t.gateway.trips.world.conns))
            (as.flatMap messageOf) := by
  let first := utf8 "\x7b\"vinNumber\":\"V1\"\x7d"
  let second := utf8 "\x7b\"vinNumber\":\"V2\"\x7d"
  let _ : JsonLibrary := libraryOf (fun _ => "") [
    (first, .obj [("vinNumber", .str "V1")]), (second, .obj [("vinNumber", .str "V2")])]
  let as : List Program.Action :=
    [.receive ⟨utf8 kTopicOrderUpdateStatus, first⟩, .declareSubscriber, .setup [],
     .createVehicle [] [], .vechileLogin [] [], .startServer, .complete 0 (.request true),
     .complete 0 (.write (.orderUpdateStatus ⟨"V1"⟩) true),
     .receive ⟨utf8 kTopicOrderUpdateLocation, second⟩, .complete 0 (.read none),
     .receive ⟨utf8 kTopicOrderUpdateStatus, first⟩]
  have hrun : ((Program.machine {} {}).run (.start {}) as).map
        (fun t => (t.gateway.trips.world.accepted.flatMap (writtenAt t.gateway.trips.world.conns),
          t.gateway.trips.world.pendingCommands))
      = some ([.orderUpdateStatus ⟨"V1"⟩, .orderUpdateLocation ⟨"V2"⟩],
          [.orderUpdateStatus ⟨"V1"⟩]) := by
    decide
  obtain ⟨t, ht, hpair⟩ := Option.map_eq_some_iff.mp hrun
  obtain ⟨hwritten, hpending⟩ := Prod.mk.inj hpair
  obtain ⟨_, _, _, _, _, hsub⟩ := commands_reach_vehicles ht
  exact ⟨_, as, t, ht, hwritten, hpending, hsub⟩

end CloudGateway.Proof
