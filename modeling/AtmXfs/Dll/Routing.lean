import AtmXfs.Dll.EventRouter

namespace AtmXfs.Dll

open Js JsonText Runs
open Framing (Bytes)

/-- The bits of a mask that stand for a class. -/
def visible (mask : UInt32) : UInt32 := mask &&& 15

theorem visible_or (a b : UInt32) : visible (a ||| b) = visible a ||| visible b := by
  rw [← UInt32.toNat_inj]
  simp only [visible, UInt32.toNat_and, UInt32.toNat_or]
  exact Nat.and_or_distrib_right ..

theorem visible_and (a b : UInt32) : visible (a &&& b) = visible a &&& b := by
  rw [visible, visible, UInt32.and_assoc, UInt32.and_comm b, ← UInt32.and_assoc]

theorem and_bit (mask : UInt32) (c : EventClass) : mask &&& c.bit = visible mask &&& c.bit := by
  have hbit : 15 &&& c.bit = c.bit := by
    cases c <;> decide
  rw [visible, UInt32.and_assoc, hbit]

theorem messageForClass_bytes (c : EventClass) : messageForClass c.bytes = c.message := by
  cases c <;> decide

theorem message_ne_zero (c : EventClass) : c.message ≠ 0 := by
  cases c <;> decide

theorem classMatches_message (mask : UInt32) (c : EventClass) :
    classMatches mask c.message = decide (mask &&& c.bit ≠ 0) := by
  cases c <;> rfl

variable {H W : Type} [DecidableEq H] [DecidableEq W]

namespace EventRouter

def mask (r : EventRouter H W) (h : H) (w : W) : UInt32 := Masks.maskOf w ((r.subs h).getD [])

/-- No window has two subscriptions of a handle. -/
def Keyed (r : EventRouter H W) : Prop := ∀ h, Masks.Keyed ((r.subs h).getD [])

variable {r : EventRouter H W} {h : H}

theorem mask_register (j : H) (name : Bytes) (w v : W) (classes : UInt32) :
    (r.registerWindow h name w classes).mask j v =
      if j = h ∧ v = w then r.mask h w ||| classes else r.mask j v := by
  unfold mask registerWindow
  by_cases hj : j = h
  · subst hj
    simp only [Function.update_self, Option.getD_some, Masks.maskOf_add, true_and]
  · simp only [Function.update_of_ne hj, hj, false_and, if_false]

/-- The subscriptions that `deregisterWindow` leaves of a vector. -/
def left (vec : Masks W) (w : W) (classes : UInt32) : Masks W :=
  if classes = 0 then vec.drop w else (vec.remove w classes).dropZero

theorem maskOf_left {vec : Masks W} (hvec : vec.Keyed) (v w : W) (classes : UInt32) :
    Masks.maskOf v (left vec w classes) =
      if v = w then (if classes = 0 then 0 else Masks.maskOf w vec &&& ~~~classes)
      else Masks.maskOf v vec := by
  unfold left
  split_ifs with hzero hv hv
  · rw [Masks.maskOf_drop, if_pos hv]
  · rw [Masks.maskOf_drop, if_neg hv]
  · rw [Masks.maskOf_dropZero (hvec.remove w classes), Masks.maskOf_remove, if_pos hv]
  · rw [Masks.maskOf_dropZero (hvec.remove w classes), Masks.maskOf_remove, if_neg hv]

theorem keyed_left {vec : Masks W} (hvec : vec.Keyed) (w : W) (classes : UInt32) :
    (left vec w classes).Keyed := by
  unfold left
  split_ifs with hzero
  · exact hvec.drop w
  · exact (hvec.remove w classes).dropZero

theorem subs_deregister (j : H) (w : W) (classes : UInt32) :
    ((r.deregisterWindow h w classes).subs j).getD [] =
      if j = h then left ((r.subs h).getD []) w classes else (r.subs j).getD [] := by
  unfold deregisterWindow
  cases hsubs : r.subs h with
  | none =>
    simp only
    split_ifs with hj
    · rw [hj, hsubs]
      unfold left
      split_ifs with hzero
      · rfl
      · rfl
    · rfl
  | some vec =>
    simp only [Option.getD_some]
    by_cases hj : j = h
    · subst hj
      rw [Function.update_self, if_pos rfl]
      change (if (left vec w classes).isEmpty then none else some (left vec w classes)).getD [] =
        left vec w classes
      cases left vec w classes with
      | nil => rfl
      | cons e rest => rfl
    · rw [Function.update_of_ne hj, if_neg hj]

theorem mask_deregister (hr : r.Keyed) (j : H) (w v : W) (classes : UInt32) :
    (r.deregisterWindow h w classes).mask j v =
      if j = h ∧ v = w then (if classes = 0 then 0 else r.mask h w &&& ~~~classes)
      else r.mask j v := by
  rw [mask, subs_deregister]
  by_cases hj : j = h
  · rw [if_pos hj, maskOf_left (hr h), hj]
    simp only [true_and]
    rfl
  · rw [if_neg hj, if_neg fun hor => hj hor.1]
    rfl

theorem keyed_register (hr : r.Keyed) (name : Bytes) (w : W) (classes : UInt32) :
    (r.registerWindow h name w classes).Keyed := by
  intro j
  unfold registerWindow
  by_cases hj : j = h
  · subst hj
    simp only [Function.update_self, Option.getD_some]
    exact (hr j).add w classes
  · simp only [Function.update_of_ne hj]
    exact hr j

theorem keyed_deregister (hr : r.Keyed) (w : W) (classes : UInt32) :
    (r.deregisterWindow h w classes).Keyed := by
  intro j
  rw [subs_deregister]
  split_ifs with hj
  · exact keyed_left (hr h) w classes
  · exact hr j

omit [DecidableEq W] in
theorem keyed_clear (hr : r.Keyed) : (r.clearService h).Keyed := by
  intro j
  unfold clearService
  by_cases hj : j = h
  · subst hj
    simp only [Function.update_self]
    exact List.nodup_nil
  · simp only [Function.update_of_ne hj]
    exact hr j

theorem byLogical_deregister (w : W) (classes : UInt32) :
    (r.deregisterWindow h w classes).byLogical = r.byLogical := by
  unfold deregisterWindow
  cases r.subs h with
  | none => rfl
  | some vec => rfl

theorem byLogical_register (name other : Bytes) (w : W) (classes : UInt32) :
    (r.registerWindow h name w classes).byLogical other =
      if name ≠ [] ∧ other = name then some h else r.byLogical other := by
  unfold registerWindow
  by_cases hname : name = []
  · simp [hname]
  · by_cases hother : other = name
    · subst hother
      simp [hname]
    · simp [hname, hother]

theorem mask_clear (j : H) (v : W) :
    (r.clearService h).mask j v = if j = h then 0 else r.mask j v := by
  unfold mask clearService
  by_cases hj : j = h
  · subst hj
    simp only [Function.update_self, Option.getD_none, Masks.maskOf_nil, if_true]
  · simp only [Function.update_of_ne hj, hj, if_false]

omit [DecidableEq H] [DecidableEq W] in
/-- What the dispatch of an event frame comes to. -/
theorem dispatch_body (r : EventRouter H W) (f : EventFrame) :
    ∃ hash, r.dispatch f.body =
      match r.byLogical f.hService.bytes with
      | none => []
      | some h => (((r.subs h).getD []).filter fun s => s.2 &&& f.eventClass.bit ≠ 0).map
          fun s => ⟨s.1, f.eventClass.message, hash⟩ := by
  have htype : Reader.getString f.body (ascii "type") = ascii "event" := getString_type ..
  refine ⟨(Reader.getString f.body (ascii "eventCode")).foldl
    (fun hash c => hash * 31 + c.toUInt32) 0, ?_⟩
  cases hlogical : r.byLogical f.hService.bytes with
  | none =>
    simp only [dispatch, htype, f.getString_eventClass, messageForClass_bytes, f.getString_hService,
      ne_eq, not_true_eq_false, message_ne_zero, or_self, if_false, hlogical]
  | some h =>
    simp only [dispatch, htype, f.getString_eventClass, messageForClass_bytes, f.getString_hService,
      ne_eq, not_true_eq_false, message_ne_zero, or_self, if_false, hlogical, classMatches_message]

end EventRouter

namespace Registry

def mask (g : Registry H W) (h : H) (w : W) : UInt32 := Masks.maskOf (h, w) g.registrations

/-- A window of the handle is registered for some class. -/
def Live (g : Registry H W) (h : H) : Prop :=
  ∃ e ∈ g.registrations, e.1.1 = h ∧ visible e.2 ≠ 0

variable {g : Registry H W} {h : H}

theorem live_iff (hg : g.registrations.Keyed) : g.Live h ↔ ∃ w, visible (g.mask h w) ≠ 0 := by
  constructor
  · intro hlive
    obtain ⟨⟨⟨j, w⟩, m⟩, he, rfl, hm⟩ := hlive
    have hne : m ≠ 0 := by
      intro hzero
      exact hm (congrArg visible hzero)
    refine ⟨w, ?_⟩
    rw [mask, (hg.mem_iff hne).mp he]
    exact hm
  · intro hlive
    obtain ⟨w, hw⟩ := hlive
    have hne : g.mask h w ≠ 0 := by
      intro hzero
      rw [hzero] at hw
      exact hw rfl
    exact ⟨((h, w), g.mask h w), (hg.mem_iff hne).mpr rfl, rfl, hw⟩

theorem mask_register (j : H) (name : Bytes) (w v : W) (classes : UInt32) :
    (g.register h name w classes).mask j v = if j = h ∧ v = w then classes else g.mask j v := by
  simp only [mask, register, Masks.maskOf_set, Prod.mk.injEq]

theorem mask_deregister (j : H) (w v : W) (classes : UInt32) :
    (g.deregister h w classes).mask j v =
      if j = h ∧ v = w then (if classes = 0 then 0 else g.mask h w &&& ~~~classes)
      else g.mask j v := by
  unfold mask deregister
  by_cases hzero : classes = 0
  · simp only [hzero, if_true, Masks.maskOf_drop, Prod.mk.injEq]
  · simp only [hzero, if_false, Masks.maskOf_remove, Prod.mk.injEq]

theorem mask_close (j : H) (v : W) :
    (g.close h).mask j v = if j = h then 0 else g.mask j v := by
  rw [mask, close, Masks.maskOf_keep]
  by_cases hj : j = h
  · simp [hj]
  · simp [hj, mask]

end Registry

/-- The event is posted once for each registration it is meant for, and for no other. -/
structure Posted (s : Routing H W) (f : EventFrame) : Prop where
  windows : ((s.router.dispatch f.body).map Post.hwnd).Perm
    ((s.registry.due f.hService.bytes f.eventClass).map fun e => e.1.2)
  messages : ∀ p ∈ s.router.dispatch f.body, p.msg = f.eventClass.message

/-- A registration that the router takes as it is meant: it asks for no less than the window has
already, no other handle that is bound to its name has a window to lose, and none has taken over
another name of its handle. -/
structure RegisterOk (s : Routing H W) (h : H) (name : Bytes) (w : W) (classes : UInt32) :
    Prop where
  widens : visible (s.registry.mask h w ||| classes) = visible classes
  alone : name ≠ [] → ∀ b ∈ s.registry.bindings, b.2 = name → b.1 ≠ h → ¬s.registry.Live b.1
  indexed : visible classes ≠ 0 → ∀ b ∈ s.registry.bindings, b.1 = h → b.2 ≠ name →
    s.router.byLogical b.2 = some h

instance (g : Registry H W) (h : H) : Decidable (g.Live h) :=
  inferInstanceAs (Decidable (∃ e ∈ g.registrations, e.1.1 = h ∧ visible e.2 ≠ 0))

instance (s : Routing H W) (h : H) (name : Bytes) (w : W) (classes : UInt32) :
    Decidable (RegisterOk s h name w classes) :=
  decidable_of_iff
    (visible (s.registry.mask h w ||| classes) = visible classes ∧
      (name ≠ [] → ∀ b ∈ s.registry.bindings, b.2 = name → b.1 ≠ h → ¬s.registry.Live b.1) ∧
      (visible classes ≠ 0 → ∀ b ∈ s.registry.bindings, b.1 = h → b.2 ≠ name →
        s.router.byLogical b.2 = some h))
    ⟨fun h => ⟨h.1, h.2.1, h.2.2⟩, fun h => ⟨h.1, h.2, h.3⟩⟩

def StepOk (s : Routing H W) : RouterOp H W → Prop
  | .register h name w classes => RegisterOk s h name w classes
  | .deregister .. => True
  | .clear _ => True

instance (s : Routing H W) : (op : RouterOp H W) → Decidable (StepOk s op)
  | .register h name w classes => inferInstanceAs (Decidable (RegisterOk s h name w classes))
  | .deregister .. => isTrue trivial
  | .clear _ => isTrue trivial

/-- The tables of the router agree with the registrations as far as events can tell. -/
structure Agree (s : Routing H W) : Prop where
  keyed : s.router.Keyed
  once : s.registry.registrations.Keyed
  masks : ∀ h w, visible (s.router.mask h w) = visible (s.registry.mask h w)
  named : ∀ h name, (h, name) ∈ s.registry.bindings → name ≠ []
  indexed : ∀ h name, (h, name) ∈ s.registry.bindings → s.registry.Live h →
    s.router.byLogical name = some h
  bound : ∀ h name, s.router.byLogical name = some h → (h, name) ∈ s.registry.bindings

theorem agree_new : Agree (Routing.new : Routing H W) where
  keyed _ := List.nodup_nil
  once := List.nodup_nil
  masks _ _ := rfl
  named _ _ hmem := absurd hmem List.not_mem_nil
  indexed _ _ hmem := absurd hmem List.not_mem_nil
  bound _ _ heq := by cases heq

theorem agree_register {s : Routing H W} (hs : Agree s) {h : H} {name : Bytes} {w : W}
    {classes : UInt32} (hok : RegisterOk s h name w classes) :
    Agree (⟨s.router.registerWindow h name w classes, s.registry.register h name w classes⟩ :
      Routing H W) := by
  have honce : (s.registry.register h name w classes).registrations.Keyed := hs.once.set _ _
  have hmem : ∀ j other, (j, other) ∈ (s.registry.register h name w classes).bindings ↔
      (name ≠ [] ∧ j = h ∧ other = name) ∨ (j, other) ∈ s.registry.bindings := by
    intro j other
    unfold Registry.register
    by_cases hname : name = []
    · simp [hname]
    · simp [hname]
  have hlive : ∀ j, (s.registry.register h name w classes).Live j →
      s.registry.Live j ∨ (j = h ∧ visible classes ≠ 0) := by
    intro j hj
    obtain ⟨v, hv⟩ := (Registry.live_iff honce).mp hj
    rw [Registry.mask_register] at hv
    split_ifs at hv with hkey
    · exact Or.inr ⟨hkey.1, hv⟩
    · exact Or.inl ((Registry.live_iff hs.once).mpr ⟨v, hv⟩)
  constructor
  · exact EventRouter.keyed_register hs.keyed name w classes
  · exact honce
  · intro j v
    simp only
    rw [EventRouter.mask_register, Registry.mask_register]
    split_ifs with hkey
    · rw [visible_or, hs.masks h w, ← visible_or, hok.widens]
    · exact hs.masks j v
  · intro j other hother
    rcases (hmem j other).mp hother with ⟨hname, -, rfl⟩ | hold
    · exact hname
    · exact hs.named j other hold
  · intro j other hother hj
    simp only
    rw [EventRouter.byLogical_register]
    split_ifs with htaken
    · by_contra hne
      have hjh : j ≠ h := fun heq => hne (by rw [heq])
      have hold : (j, name) ∈ s.registry.bindings := by
        rcases (hmem j other).mp hother with hnew | hold
        · exact absurd hnew.2.1 hjh
        · exact htaken.2 ▸ hold
      rcases hlive j hj with hbefore | hnow
      · exact hok.alone htaken.1 (j, name) hold rfl hjh hbefore
      · exact hjh hnow.1
    · have hold : (j, other) ∈ s.registry.bindings := by
        rcases (hmem j other).mp hother with hnew | hold
        · exact absurd ⟨hnew.1, hnew.2.2⟩ htaken
        · exact hold
      rcases hlive j hj with hbefore | hnow
      · exact hs.indexed j other hold hbefore
      · have hne : other ≠ name := by
          intro heq
          exact htaken ⟨heq ▸ hs.named j other hold, heq⟩
        rw [hnow.1] at hold ⊢
        exact hok.indexed hnow.2 (h, other) hold rfl hne
  · intro j other hother
    simp only at hother
    rw [EventRouter.byLogical_register] at hother
    rw [hmem]
    split_ifs at hother with htaken
    · exact Or.inl ⟨htaken.1, (Option.some.inj hother).symm, htaken.2⟩
    · exact Or.inr (hs.bound j other hother)

theorem agree_deregister {s : Routing H W} (hs : Agree s) (h : H) (w : W) (classes : UInt32) :
    Agree (⟨s.router.deregisterWindow h w classes, s.registry.deregister h w classes⟩ :
      Routing H W) := by
  have honce : (s.registry.deregister h w classes).registrations.Keyed := by
    unfold Registry.deregister
    simp only
    split_ifs with hzero
    · exact hs.once.drop _
    · exact hs.once.remove _ _
  have hlive : ∀ j, (s.registry.deregister h w classes).Live j → s.registry.Live j := by
    intro j hj
    obtain ⟨v, hv⟩ := (Registry.live_iff honce).mp hj
    rw [Registry.mask_deregister] at hv
    split_ifs at hv with hkey hzero
    · exact absurd rfl hv
    · rw [visible_and] at hv
      refine (Registry.live_iff hs.once).mpr ⟨w, fun hnone => hv ?_⟩
      rw [← hkey.1, hnone, UInt32.zero_and]
    · exact (Registry.live_iff hs.once).mpr ⟨v, hv⟩
  constructor
  · exact EventRouter.keyed_deregister hs.keyed w classes
  · exact honce
  · intro j v
    simp only
    rw [EventRouter.mask_deregister hs.keyed, Registry.mask_deregister]
    split_ifs with hkey hzero
    · rfl
    · rw [visible_and, visible_and, hs.masks h w]
    · exact hs.masks j v
  · exact hs.named
  · intro j name hname hj
    simp only
    rw [EventRouter.byLogical_deregister]
    exact hs.indexed j name hname (hlive j hj)
  · intro j name hname
    simp only at hname
    rw [EventRouter.byLogical_deregister] at hname
    exact hs.bound j name hname

theorem agree_clear {s : Routing H W} (hs : Agree s) (h : H) :
    Agree (⟨s.router.clearService h, s.registry.close h⟩ : Routing H W) := by
  have honce : (s.registry.close h).registrations.Keyed := by
    unfold Registry.close
    exact hs.once.keep fun key => key.1 ≠ h
  have hmem : ∀ j name, (j, name) ∈ (s.registry.close h).bindings ↔
      (j, name) ∈ s.registry.bindings ∧ j ≠ h := by
    intro j name
    simp [Registry.close]
  have hlive : ∀ j, (s.registry.close h).Live j → s.registry.Live j := by
    intro j hj
    obtain ⟨v, hv⟩ := (Registry.live_iff honce).mp hj
    rw [Registry.mask_close] at hv
    split_ifs at hv with hkey
    · exact absurd rfl hv
    · exact (Registry.live_iff hs.once).mpr ⟨v, hv⟩
  constructor
  · exact EventRouter.keyed_clear hs.keyed
  · exact honce
  · intro j v
    simp only
    rw [EventRouter.mask_clear, Registry.mask_close]
    split_ifs with hkey
    · rfl
    · exact hs.masks j v
  · intro j name hname
    exact hs.named j name ((hmem j name).mp hname).1
  · intro j name hname hj
    obtain ⟨hold, hne⟩ := (hmem j name).mp hname
    have hindex := hs.indexed j name hold (hlive j hj)
    have hother : ¬s.router.byLogical name = some h := by
      rw [hindex]
      exact fun heq => hne (Option.some.inj heq)
    simp only [EventRouter.clearService, hother, if_false]
    exact hindex
  · intro j name hname
    simp only [EventRouter.clearService] at hname
    split_ifs at hname with hgone
    have hne : j ≠ h := fun heq => hgone (heq ▸ hname)
    exact (hmem j name).mpr ⟨hs.bound j name hname, hne⟩

theorem agree_step {s t : Routing H W} (hs : Agree s) {op : RouterOp H W} (hok : StepOk s op)
    (hstep : s.step op = some t) : Agree t := by
  cases op with
  | register h name w classes =>
    cases hstep
    exact agree_register hs hok
  | deregister h w classes =>
    cases hstep
    exact agree_deregister hs h w classes
  | clear h =>
    cases hstep
    exact agree_clear hs h

theorem ne_zero_of_and {m bit : UInt32} (h : m &&& bit ≠ 0) : m ≠ 0 := by
  intro hzero
  rw [hzero, UInt32.zero_and] at h
  exact h rfl

theorem visible_ne_zero {m : UInt32} {c : EventClass} (h : m &&& c.bit ≠ 0) : visible m ≠ 0 := by
  rw [and_bit] at h
  exact ne_zero_of_and h

/-- A registration that an event is due to belongs to the handle its service is indexed to. -/
theorem Agree.handle_due {s : Routing H W} (hs : Agree s) {name : Bytes} {c : EventClass}
    {e : (H × W) × UInt32} (he : e ∈ s.registry.due name c) :
    e ∈ s.registry.registrations ∧ s.router.byLogical name = some e.1.1 ∧ e.2 &&& c.bit ≠ 0 := by
  obtain ⟨hmem, hdue⟩ := List.mem_filter.mp he
  have hdue' : (e.1.1, name) ∈ s.registry.bindings ∧ e.2 &&& c.bit ≠ 0 := by simpa using hdue
  have hlive : s.registry.Live e.1.1 := ⟨e, hmem, rfl, visible_ne_zero hdue'.2⟩
  exact ⟨hmem, hs.indexed _ _ hdue'.1 hlive, hdue'.2⟩

theorem Agree.mem_posts {s : Routing H W} (hs : Agree s) {h : H} {c : EventClass} {v : W} :
    v ∈ ((((s.router.subs h).getD []).filter fun e => e.2 &&& c.bit ≠ 0).map Prod.fst) ↔
      visible (s.router.mask h v) &&& c.bit ≠ 0 := by
  rw [← and_bit]
  constructor
  · intro hv
    obtain ⟨⟨w, m⟩, he, rfl⟩ := List.mem_map.mp hv
    obtain ⟨hmem, hm⟩ := List.mem_filter.mp he
    have hm' : m &&& c.bit ≠ 0 := by simpa using hm
    have hmask : s.router.mask h w = m := ((hs.keyed h).mem_iff (ne_zero_of_and hm')).mp hmem
    rw [hmask]
    exact hm'
  · intro hv
    have hmem := ((hs.keyed h).mem_iff (ne_zero_of_and hv)).mpr rfl
    exact List.mem_map.mpr ⟨(v, s.router.mask h v),
      List.mem_filter.mpr ⟨hmem, by simpa using hv⟩, rfl⟩

theorem Agree.mem_due {s : Routing H W} (hs : Agree s) {h : H} {name : Bytes} {c : EventClass}
    (hindex : s.router.byLogical name = some h) {v : W} :
    v ∈ (s.registry.due name c).map (fun e => e.1.2) ↔
      visible (s.registry.mask h v) &&& c.bit ≠ 0 := by
  rw [← and_bit]
  constructor
  · intro hv
    obtain ⟨⟨⟨j, w⟩, m⟩, he, rfl⟩ := List.mem_map.mp hv
    obtain ⟨hmem, hown, hm⟩ := hs.handle_due he
    obtain rfl : h = j := Option.some.inj (hindex.symm.trans hown)
    have hmask : s.registry.mask h w = m := (hs.once.mem_iff (ne_zero_of_and hm)).mp hmem
    rw [hmask]
    exact hm
  · intro hv
    have hmem := (hs.once.mem_iff (ne_zero_of_and hv)).mpr rfl
    have hbound := hs.bound h name hindex
    exact List.mem_map.mpr ⟨((h, v), s.registry.mask h v),
      List.mem_filter.mpr ⟨hmem, by simpa using ⟨hbound, hv⟩⟩, rfl⟩

/-- Where the tables agree every event is posted as it is due. -/
theorem Agree.posted {s : Routing H W} (hs : Agree s) (f : EventFrame) : Posted s f := by
  obtain ⟨hash, hdispatch⟩ := s.router.dispatch_body f
  cases hindex : s.router.byLogical f.hService.bytes with
  | none =>
    rw [hindex] at hdispatch
    have hdue : s.registry.due f.hService.bytes f.eventClass = [] := by
      apply List.eq_nil_iff_forall_not_mem.mpr
      intro e he
      have hown := (hs.handle_due he).2.1
      rw [hindex] at hown
      cases hown
    constructor
    · rw [hdispatch, hdue]
      exact List.Perm.refl _
    · rw [hdispatch]
      exact fun p hp => absurd hp List.not_mem_nil
  | some h =>
    rw [hindex] at hdispatch
    simp only at hdispatch
    have hwindows : (s.router.dispatch f.body).map Post.hwnd =
        (((s.router.subs h).getD []).filter fun e => e.2 &&& f.eventClass.bit ≠ 0).map
          Prod.fst := by
      rw [hdispatch, List.map_map]
      rfl
    constructor
    · rw [hwindows]
      apply (List.perm_ext_iff_of_nodup ?_ ?_).mpr
      · intro v
        rw [hs.mem_posts, hs.mem_due hindex, hs.masks h v]
      · exact (hs.keyed h).filter _
      · have hkeys : ((s.registry.due f.hService.bytes f.eventClass).map Prod.fst).Nodup :=
          hs.once.filter _
        have hsplit : (s.registry.due f.hService.bytes f.eventClass).map (fun e => e.1.2) =
            ((s.registry.due f.hService.bytes f.eventClass).map Prod.fst).map Prod.snd := by
          rw [List.map_map]
          rfl
        rw [hsplit]
        apply hkeys.map_on
        intro x hx y hy hxy
        obtain ⟨e, he, rfl⟩ := List.mem_map.mp hx
        obtain ⟨e', he', rfl⟩ := List.mem_map.mp hy
        have hone := (hs.handle_due he).2.1.symm.trans (hs.handle_due he').2.1
        exact Prod.ext (Option.some.inj hone) hxy
    · rw [hdispatch]
      intro p hp
      obtain ⟨e, -, rfl⟩ := List.mem_map.mp hp
      rfl

/-- In a run whose registrations the router takes as they are meant every event is posted as it
is due, whenever it comes. -/
theorem posted_of_along {ops : List (RouterOp H W)}
    (hops : Along Routing.step StepOk Routing.new ops) :
    Always Routing.step (fun s => ∀ f, Posted s f) Routing.new ops := by
  have hstep : ∀ (s : Routing H W) op t, Agree s → StepOk s op → s.step op = some t → Agree t :=
    fun s op t hs hok ht => agree_step hs hok ht
  have hagree := always_of_along hstep agree_new hops
  exact hagree.mono fun s hs => hs.posted

/-- An event of the card reader. -/
def cardInserted : EventFrame where
  id := ⟨ascii "evt_1", by decide⟩
  ts := ⟨ascii "2024-01-01T00:00:00.000Z", by decide⟩
  service := ⟨ascii "IDC", by decide⟩
  hService := ⟨ascii "IDC30", by decide⟩
  eventCode := ⟨ascii "WFS_SRVE_IDC_MEDIAINSERTED", by decide⟩
  eventClass := .srve
  payload := ascii "\x7b\x7d"

/-- Two windows of one handle, of which one widens its classes and the other is closed. -/
def oneHandle : List (RouterOp Nat Nat) :=
  [.register 1 (ascii "IDC30") 10 1, .register 1 (ascii "IDC30") 11 9,
    .register 1 (ascii "IDC30") 10 5, .deregister 1 11 0]

theorem oneHandle_posted :
    Always Routing.step (fun s => ∀ f, Posted s f) Routing.new oneHandle := by
  exact posted_of_along (by decide +kernel)

def afterOps (ops : List (RouterOp Nat Nat)) : Routing Nat Nat :=
  (exec Routing.step Routing.new ops).getD Routing.new

/-- A second handle opens the card reader and closes it again, and a window asks for fewer
classes than before. -/
theorem handle_silenced :
    ((afterOps [.register 1 (ascii "IDC30") 10 1, .register 2 (ascii "IDC30") 20 1,
        .clear 2]).router.dispatch cardInserted.body).map Post.hwnd = [] ∧
      ¬Posted (afterOps [.register 1 (ascii "IDC30") 10 1, .register 2 (ascii "IDC30") 20 1,
        .clear 2]) cardInserted ∧
      ¬Posted (afterOps [.register 1 (ascii "IDC30") 10 9, .register 1 (ascii "IDC30") 10 8])
        cardInserted := by
  refine ⟨by decide +kernel, fun h => ?_, fun h => ?_⟩
  · exact absurd h.windows.length_eq (by decide +kernel)
  · exact absurd h.windows.length_eq (by decide +kernel)

end AtmXfs.Dll
