import Mathlib.Data.List.Nodup
import Mathlib.Logic.Function.Basic
import PluginRegistry.Proofs.MailboxLedger
import PluginRegistry.Proofs.WorldRuns

/-!
# What the subscribers of a stream are told

A relay is an event stream with the mailboxes that its subscribers are named by. An event appends
its changes to the mailbox of each subscriber, unless it is closed (`box_emit`), so every act is a
move of each mailbox (`moves_next`) and the account of a mailbox gives what it was told over any
course of acts. The numbers of subscriptions are counted up, hence an act that concerns another
subscriber leaves no trace here, now or later (`Agree.next`).
-/

namespace PluginRegistry.Live

open Actor

/-- An event stream and the mailboxes at all addresses. -/
structure Relay where
  stream : Stream
  box : Nat → Mailbox Message

namespace Relay

def fresh : Relay := ⟨.empty, fun _ => .empty⟩

def update (r : Relay) (address : Nat) (f : Mailbox Message → Mailbox Message) : Relay :=
  { r with box := Function.update r.box address (f (r.box address)) }

def tell (xs : List PackageChange) (r : Relay) (addresses : List Nat) : Relay :=
  addresses.foldl (fun r a => r.update a fun m => deliver m xs) r

def emit (r : Relay) (e : PackageEvent) : Relay := r.tell e.changes r.stream.addresses

/-- What may happen to a stream and the mailboxes. Messages that are no changes are put into a
mailbox by others. -/
inductive Act
  | subscribe (address : Nat)
  | unsubscribe (id : Nat)
  | emit (e : PackageEvent)
  | close (address : Nat)
  | receive (address : Nat)
  | discard (address : Nat)
  | order (address : Nat) (m : Message) (other : m.change? = none)

def next (r : Relay) : Act → Relay
  | .subscribe a => { r with stream := (r.stream.subscribe a).1 }
  | .unsubscribe id => { r with stream := r.stream.unsubscribe id }
  | .emit e => r.emit e
  | .close a => r.update a Mailbox.close
  | .receive a => r.update a fun m => m.tryReceive.1
  | .discard a => r.update a fun m => m.discard.1
  | .order a m _ => r.update a fun box => (box.send m).1

variable (r : Relay) (a : Nat)

/-- The changes that an act puts into a mailbox: those of an event once for each subscription, as
long as the mailbox is open. -/
def due : Act → List PackageChange
  | .emit e =>
    if (r.box a).closed then []
    else (List.replicate (r.stream.addresses.count a) e.changes).flatten
  | _ => []

def accepted : Act → List Message
  | .order b m _ => if b = a then (r.box a).admitted m else []
  | x => (r.due a x).map .package

def taken : Act → List Message
  | .receive b => if b = a then (r.box a).tryReceive.2.toList else []
  | _ => []

def dropped : Act → List Message
  | .discard b => if b = a then (r.box a).queue else []
  | _ => []

def total {β : Type} (f : Relay → Act → List β) (t : List (Instant Relay Act)) : List β :=
  t.flatMap fun i => f i.state i.act

theorem total_concat {β : Type} (f : Relay → Act → List β) (t : List (Instant Relay Act))
    (x : Act) : total f (t ++ [⟨r, x⟩]) = total f t ++ f r x := by
  rw [total, List.flatMap_append, List.flatMap_singleton]
  rfl

theorem total_cons {β : Type} (f : Relay → Act → List β) (i : Instant Relay Act)
    (t : List (Instant Relay Act)) : total f (i :: t) = f i.state i.act ++ total f t :=
  List.flatMap_cons

variable {r u v : Relay} {a b : Nat} {x : Act} {t : List (Instant Relay Act)}

theorem box_update (r : Relay) (a b : Nat) (f : Mailbox Message → Mailbox Message) :
    (r.update b f).box a = if b = a then f (r.box a) else r.box a := by
  by_cases h : b = a
  · subst h
    rw [update, if_pos rfl]
    exact Function.update_self ..
  · rw [update, if_neg h]
    exact Function.update_of_ne (Ne.symm h) ..

theorem stream_tell (xs : List PackageChange) (r : Relay) (bs : List Nat) :
    (r.tell xs bs).stream = r.stream := by
  induction bs generalizing r with
  | nil => rfl
  | cons b bs ih => exact ih _

theorem box_tell_of_closed (h : (r.box a).closed = true) (xs : List PackageChange)
    (bs : List Nat) : (r.tell xs bs).box a = r.box a := by
  induction bs generalizing r with
  | nil => rfl
  | cons b bs ih =>
    have hb : (r.update b fun m => deliver m xs).box a = r.box a := by
      rw [box_update, deliver_of_closed h, ite_self]
    exact (ih (hb ▸ h)).trans hb

theorem box_tell_of_open (h : (r.box a).closed = false) (xs : List PackageChange)
    (bs : List Nat) :
    (r.tell xs bs).box a =
      ⟨(r.box a).queue ++ (List.replicate (bs.count a) xs).flatten.map .package, false⟩ := by
  induction bs generalizing r with
  | nil => simp [tell, ← h]
  | cons b bs ih =>
    change (tell xs (r.update b fun m => deliver m xs) bs).box a = _
    have hb := r.box_update a b fun m => deliver m xs
    by_cases he : b = a
    · rw [if_pos he, deliver_of_open h] at hb
      rw [ih (by rw [hb]), hb, he, List.count_cons_self, List.replicate_succ]
      simp
    · rw [if_neg he] at hb
      rw [ih (hb ▸ h), hb, List.count_cons_of_ne he]

/-- An event appends its changes to a mailbox. -/
theorem box_emit (r : Relay) (e : PackageEvent) (a : Nat) :
    (r.emit e).box a = ⟨(r.box a).queue ++ (r.due a (.emit e)).map .package, (r.box a).closed⟩ := by
  cases h : (r.box a).closed with
  | true =>
    rw [emit, box_tell_of_closed h, due, if_pos h, ← h]
    simp
  | false => rw [emit, box_tell_of_open h, due, if_neg (by simp [h])]

theorem due_of_closed (h : (r.box a).closed = true) (x : Act) : r.due a x = [] := by
  cases x with
  | emit e => exact if_pos h
  | _ => rfl

/-- Every act is a move of every mailbox. -/
theorem moves_next (r : Relay) (x : Act) (a : Nat) :
    (r.box a).Moves ((r.next x).box a) (r.accepted a x) (r.taken a x) (r.dropped a x) := by
  cases x with
  | subscribe b | unsubscribe id => exact .refl _
  | emit e =>
    rw [next, box_emit]
    refine ⟨by simp [accepted, taken, dropped], fun h => ⟨h, ?_⟩, fun h => absurd rfl h⟩
    rw [accepted, due_of_closed h, List.map_nil]
    exact nofun
  | close b =>
    rw [next, box_update]
    split
    · exact Mailbox.moves_close _
    · exact .refl _
  | receive b =>
    rw [next, box_update, taken]
    split
    · exact Mailbox.moves_tryReceive _
    · exact .refl _
  | discard b =>
    rw [next, box_update, dropped]
    split
    · exact Mailbox.moves_discard _
    · exact .refl _
  | order b m other =>
    rw [next, box_update, accepted]
    split
    · exact Mailbox.moves_send _ m
    · exact .refl _

theorem balanced_after (xs : List Act) (a : Nat) :
    ((after next fresh xs).box a).Balanced (total (accepted · a) (history next fresh xs))
      (total (taken · a) (history next fresh xs))
      (total (dropped · a) (history next fresh xs)) := by
  refine history_induction next (P := fun t r => (r.box a).Balanced (total (accepted · a) t)
    (total (taken · a) t) (total (dropped · a) t)) Mailbox.balanced_empty ?_ xs
  intro t r x h
  rw [total_concat, total_concat, total_concat]
  exact h.moves (r.moves_next x a)

theorem filterMap_accepted (r : Relay) (a : Nat) (x : Act) :
    (r.accepted a x).filterMap Message.change? = r.due a x := by
  have packages (xs : List PackageChange) :
      (xs.map Message.package).filterMap Message.change? = xs := by
    rw [List.filterMap_map]
    exact List.filterMap_some
  cases x with
  | order b m other =>
    change (if b = a then (r.box a).admitted m else []).filterMap _ = []
    rw [Mailbox.admitted]
    split
    · split
      · rw [List.filterMap_cons_none other, List.filterMap_nil]
      · rfl
    · rfl
  | _ => exact packages _

/-- Of all that went into a mailbox the changes are those that were due. -/
theorem filterMap_total_accepted (a : Nat) (t : List (Instant Relay Act)) :
    (total (accepted · a) t).filterMap Message.change? = total (due · a) t := by
  induction t with
  | nil => rfl
  | cons i t ih =>
    rw [total_cons, total_cons, List.filterMap_append, filterMap_accepted, ih]

def granted (r : Relay) : Act → List (Nat × Nat)
  | .subscribe a => [(r.stream.nextId, a)]
  | _ => []

def revoked (r : Relay) : Act → List Nat
  | .unsubscribe id => if id < r.stream.nextId then [id] else []
  | _ => []

/-- The numbers are counted up, and the subscribers are those who have subscribed and whose number
was not revoked. -/
structure Numbered (t : List (Instant Relay Act)) (r : Relay) : Prop where
  counted : (total granted t).map Prod.fst = List.range r.stream.nextId
  known : ∀ id ∈ total revoked t, id < r.stream.nextId
  sinks : r.stream.sinks = (total granted t).filter fun e => e.1 ∉ total revoked t

theorem Numbered.lt_nextId (h : Numbered t r) {e : Nat × Nat} (he : e ∈ total granted t) :
    e.1 < r.stream.nextId := by
  have hm : e.1 ∈ (total granted t).map Prod.fst := List.mem_map_of_mem he
  rw [h.counted] at hm
  exact List.mem_range.1 hm

/-- An act that leaves the stream alone. -/
theorem Numbered.of_eq (h : Numbered t r) (hs : (r.next x).stream = r.stream)
    (hg : r.granted x = []) (hr : r.revoked x = []) : Numbered (t ++ [⟨r, x⟩]) (r.next x) := by
  have granted : total granted (t ++ [⟨r, x⟩]) = total granted t := by
    rw [total_concat, hg, List.append_nil]
  have revoked : total revoked (t ++ [⟨r, x⟩]) = total revoked t := by
    rw [total_concat, hr, List.append_nil]
  exact ⟨by rw [granted, hs, h.counted], by rw [revoked, hs]; exact h.known,
    by rw [granted, revoked, hs, h.sinks]⟩

theorem Numbered.subscribe (h : Numbered t r) (a : Nat) :
    Numbered (t ++ [⟨r, .subscribe a⟩]) (r.next (.subscribe a)) := by
  have granted : total granted (t ++ [⟨r, .subscribe a⟩]) =
      total granted t ++ [(r.stream.nextId, a)] := total_concat ..
  have revoked : total revoked (t ++ [⟨r, .subscribe a⟩]) = total revoked t :=
    (total_concat ..).trans (List.append_nil _)
  refine ⟨?_, fun id hid => ?_, ?_⟩
  · rw [granted, List.map_append, h.counted]
    exact List.range_succ.symm
  · rw [revoked] at hid
    exact Nat.lt_succ_of_lt (h.known id hid)
  · -- A number that was revoked was given before.
    have new : r.stream.nextId ∉ total Relay.revoked t := fun hm => Nat.lt_irrefl _ (h.known _ hm)
    rw [granted, revoked, List.filter_append, ← h.sinks, List.filter_singleton]
    simp [Relay.next, Stream.subscribe, new]

theorem Numbered.unsubscribe (h : Numbered t r) (id : Nat) :
    Numbered (t ++ [⟨r, .unsubscribe id⟩]) (r.next (.unsubscribe id)) := by
  have granted : total granted (t ++ [⟨r, .unsubscribe id⟩]) = total granted t :=
    (total_concat ..).trans (List.append_nil _)
  have revoked : total revoked (t ++ [⟨r, .unsubscribe id⟩]) =
      total revoked t ++ if id < r.stream.nextId then [id] else [] := total_concat ..
  refine ⟨granted ▸ h.counted, fun i hi => ?_, ?_⟩
  · rw [revoked, List.mem_append] at hi
    rcases hi with hi | hi
    · exact h.known i hi
    · split at hi
      · next hlt => exact List.mem_singleton.1 hi ▸ hlt
      · cases hi
  · rw [granted, revoked]
    change r.stream.sinks.filter (fun e => e.1 ≠ id) = _
    rw [h.sinks, List.filter_filter]
    refine List.filter_congr fun e he => ?_
    have hlt := h.lt_nextId he
    by_cases hid : id < r.stream.nextId
    · simp [hid, and_comm]
    · have hne : e.1 ≠ id := by omega
      simp [hid, hne]

theorem Numbered.next (h : Numbered t r) (x : Act) :
    Numbered (t ++ [⟨r, x⟩]) (r.next x) := by
  cases x with
  | subscribe a => exact h.subscribe a
  | unsubscribe id => exact h.unsubscribe id
  | emit e => exact h.of_eq (stream_tell _ _ _) rfl rfl
  | close | receive | discard | order => exact h.of_eq rfl rfl rfl

theorem numbered_after (xs : List Act) :
    Numbered (history next fresh xs) (after next fresh xs) :=
  history_induction next ⟨rfl, nofun, rfl⟩ (fun _ _ x h => h.next x) xs

/-- A number that nobody holds. -/
theorem unsubscribe_of_not_mem {id : Nat} (h : ∀ e ∈ r.stream.sinks, e.1 ≠ id) :
    r.next (.unsubscribe id) = r := by
  have hs : r.stream.unsubscribe id = r.stream := by
    rw [Stream.unsubscribe, List.filter_eq_self.2]
    exact fun e he => decide_eq_true (h e he)
  rw [Relay.next, hs]

theorem Numbered.unsubscribe_eq (h : Numbered t r) {id : Nat}
    (spent : id ∈ total revoked t ∨ r.stream.nextId ≤ id) : r.next (.unsubscribe id) = r := by
  refine unsubscribe_of_not_mem fun e he => ?_
  rw [h.sinks, List.mem_filter] at he
  rintro rfl
  rcases spent with hr | hle
  · exact absurd hr (of_decide_eq_true he.2)
  · exact absurd (h.lt_nextId he.1) (by omega)

/-- Nothing at an address tells one relay from the other. -/
structure Agree (a : Nat) (u v : Relay) : Prop where
  box : u.box a = v.box a
  nextId : u.stream.nextId = v.stream.nextId
  sinks : u.stream.sinks.filter (fun e => e.2 = a) = v.stream.sinks.filter (fun e => e.2 = a)

theorem count_addresses (s : Stream) (a : Nat) :
    s.addresses.count a = (s.sinks.filter fun e => e.2 = a).length := by
  rw [Stream.addresses, List.count_eq_countP, List.countP_map, List.countP_eq_length_filter]
  rfl

theorem Agree.due_eq (h : Agree a u v) (x : Act) : u.due a x = v.due a x := by
  cases x with
  | emit e => rw [due, due, count_addresses, count_addresses, h.box, h.sinks]
  | _ => rfl

theorem Agree.accepted_eq (h : Agree a u v) (x : Act) : u.accepted a x = v.accepted a x := by
  cases x with
  | order b m other => rw [accepted, accepted, h.box]
  | emit e => exact congrArg (List.map Message.package) (h.due_eq (.emit e))
  | _ => rfl

theorem Agree.update (h : Agree a u v) (b : Nat) (f : Mailbox Message → Mailbox Message) :
    Agree a (u.update b f) (v.update b f) :=
  ⟨by rw [box_update, box_update, h.box], h.nextId, h.sinks⟩

theorem Agree.next (h : Agree a u v) (x : Act) : Agree a (u.next x) (v.next x) := by
  cases x with
  | subscribe b =>
    refine ⟨h.box, congrArg (· + 1) h.nextId, ?_⟩
    simp only [Relay.next, Stream.subscribe, List.filter_append, h.sinks, h.nextId]
  | unsubscribe id =>
    refine ⟨h.box, h.nextId, ?_⟩
    simp only [Relay.next, Stream.unsubscribe, List.filter_filter, Bool.and_comm (decide (_ = a))]
    rw [← List.filter_filter, ← List.filter_filter, h.sinks]
  | emit e =>
    refine ⟨?_, ?_, ?_⟩
    · rw [Relay.next, Relay.next, box_emit, box_emit, h.due_eq, h.box]
    · exact (congrArg _ (stream_tell ..)).trans (h.nextId.trans (congrArg _ (stream_tell ..).symm))
    · simp only [Relay.next, emit, stream_tell, h.sinks]
  | close b => exact h.update b Mailbox.close
  | receive b => exact h.update b fun m => m.tryReceive.1
  | discard b => exact h.update b fun m => m.discard.1
  | order b m other => exact h.update b fun box => (box.send m).1

theorem Agree.after (h : Agree a u v) (ys : List Act) :
    Agree a (after Relay.next u ys) (after Relay.next v ys) ∧
      total (accepted · a) (history Relay.next u ys) =
        total (accepted · a) (history Relay.next v ys) := by
  induction ys generalizing u v with
  | nil => exact ⟨h, rfl⟩
  | cons y ys ih =>
    obtain ⟨ha, ht⟩ := ih (h.next y)
    refine ⟨ha, ?_⟩
    rw [history, history, total_cons, total_cons, ht, h.accepted_eq]

/-- The act concerns neither the mailbox at an address nor a subscription of it. -/
inductive Spares (r : Relay) (a : Nat) : Act → Prop
  | unsubscribe {id : Nat} (other : (id, a) ∉ r.stream.sinks) : Spares r a (.unsubscribe id)
  | close {b : Nat} (other : b ≠ a) : Spares r a (.close b)
  | receive {b : Nat} (other : b ≠ a) : Spares r a (.receive b)
  | discard {b : Nat} (other : b ≠ a) : Spares r a (.discard b)
  | order {b : Nat} {m : Message} {h : m.change? = none} (other : b ≠ a) :
      Spares r a (.order b m h)

theorem Spares.agree (spares : r.Spares a x) : Agree a (r.next x) r := by
  have update {b : Nat} (hb : b ≠ a) (f : Mailbox Message → Mailbox Message) :
      Agree a (r.update b f) r := ⟨by rw [box_update, if_neg hb], rfl, rfl⟩
  cases spares with
  | @unsubscribe id other =>
    refine ⟨rfl, rfl, ?_⟩
    rw [Relay.next, Stream.unsubscribe, List.filter_filter]
    refine List.filter_congr fun e he => ?_
    by_cases hb : e.2 = a
    · have hid : e.1 ≠ id := by
        rintro rfl
        exact other (hb ▸ he)
      simp [hb, hid]
    · simp [hb]
  | close hb => exact update hb Mailbox.close
  | receive hb => exact update hb fun m => m.tryReceive.1
  | discard hb => exact update hb fun m => m.discard.1
  | @order _ m _ hb => exact update hb fun box => (box.send m).1

def heard (r : Relay) (a : Nat) : Act → List PackageChange
  | .emit e => if a ∈ r.stream.addresses ∧ (r.box a).closed = false then e.changes else []
  | _ => []

theorem due_eq_heard (once : r.stream.addresses.count a ≤ 1) (x : Act) :
    r.due a x = r.heard a x := by
  cases x with
  | emit e =>
    rw [due, heard]
    cases hc : (r.box a).closed with
    | true => simp
    | false =>
      by_cases ha : a ∈ r.stream.addresses
      · have hone : r.stream.addresses.count a = 1 := by
          have := List.count_pos_iff.2 ha
          omega
        simp [ha, hone]
      · simp [ha, List.count_eq_zero.2 ha]
  | _ => rfl

theorem total_congr {β : Type} {f g : Relay → Act → List β}
    (h : ∀ i ∈ t, f i.state i.act = g i.state i.act) : total f t = total g t := by
  induction t with
  | nil => rfl
  | cons i t ih =>
    obtain ⟨hi, ht⟩ := List.forall_mem_cons.1 h
    rw [total_cons, total_cons, hi, ih ht]

/-- Over any course of acts, the changes that a mailbox accepted are in order those of the events
that came while it was open, once for each subscription that it had then. An act that spares an
address changes nothing for it, now or later. The subscriptions are counted, those that were not
revoked are told of events, and to revoke another number has no effect. -/
theorem deliveries (xs : List Act) :
    let t := history next fresh xs
    let r := after next fresh xs
    (∀ a,
      (total (taken · a) t ++ total (dropped · a) t ++ (r.box a).queue).filterMap
        Message.change? = total (due · a) t ∧
      ((∀ i ∈ t, i.state.stream.addresses.count a ≤ 1) →
        total (due · a) t = total (heard · a) t) ∧
      ∀ x, r.Spares a x → ∀ ys,
        (after next (r.next x) ys).box a = (after next r ys).box a ∧
        total (accepted · a) (history next (r.next x) ys) =
          total (accepted · a) (history next r ys)) ∧
    (total granted t).map Prod.fst = List.range r.stream.nextId ∧
    (r.stream.nextId ≤ UInt64.size → ∀ e ∈ total granted t, (UInt64.ofNat e.1).toNat = e.1) ∧
    r.stream.sinks = (total granted t).filter (fun e => e.1 ∉ total revoked t) ∧
    ∀ id, (id ∈ total revoked t ∨ r.stream.nextId ≤ id) → r.next (.unsubscribe id) = r := by
  intro t r
  have numbered : Numbered t r := numbered_after xs
  refine ⟨fun a => ⟨?_, ?_, ?_⟩, numbered.counted, fun few e he => ?_, numbered.sinks,
    fun id => numbered.unsubscribe_eq⟩
  · rw [← (balanced_after xs a).balance]
    exact filterMap_total_accepted a t
  · exact fun once => total_congr fun i hi => due_eq_heard (once i hi) i.act
  · intro x spares ys
    obtain ⟨agree, same⟩ := spares.agree.after ys
    exact ⟨agree.box, same⟩
  · have hlt := numbered.lt_nextId he
    exact UInt64.toNat_ofNat_of_lt' (Nat.lt_of_lt_of_le hlt few)

/-- Of two subscribers one is closed and subscribes anew under another number; its old number is
revoked twice. -/
theorem deliveries_resubscribed :
    let xs : List Act := [.subscribe 0, .subscribe 1, .emit (.storage ["x", "y"] true), .close 1,
      .emit (.removed "x" false), .unsubscribe 1, .subscribe 1, .unsubscribe 1,
      .emit (.added "z" false)]
    let r := after next fresh xs
    ((r.box 0).queue).filterMap Message.change? =
        [⟨.changed, "x"⟩, ⟨.changed, "y"⟩, ⟨.removed, "x"⟩, ⟨.added, "z"⟩] ∧
      ((r.box 1).queue).filterMap Message.change? = [⟨.changed, "x"⟩, ⟨.changed, "y"⟩] ∧
      r.stream.sinks = [(0, 0), (2, 1)] ∧ r.next (.unsubscribe 1) = r := by
  intro xs r
  obtain ⟨delivered, -, -, hs, spent⟩ := deliveries xs
  exact ⟨(delivered 0).1, (delivered 1).1, hs, spent 1 (Or.inl (by decide))⟩

end Relay

namespace World

/-- The stream of a world with the mailboxes of its registries. An address without a registry
accepts nothing. -/
def relay (w : World) : Relay :=
  ⟨w.shared.stream, fun a => (w.registry? a).elim ⟨[], true⟩ Registry.mailbox⟩

theorem relay_deliverTo (w : World) (e : PackageEvent) (b : Nat) :
    (deliverTo e w b).relay = w.relay.update b fun m => deliver m e.changes := by
  refine congrArg (Relay.mk _) (funext fun a => ?_)
  refine Eq.trans ?_ (w.relay.box_update a b fun m => deliver m e.changes).symm
  rw [deliverTo, registry?_modify, relay]
  cases hr : w.registry? a <;> by_cases h : b = a <;> simp [h, hr]

/-- The registries of a world are told of an event as subscribers of a relay are. -/
theorem relay_emit (w : World) (e : PackageEvent) : (w.emit e).relay = w.relay.emit e := by
  have told (as : List Nat) (w : World) :
      (as.foldl (deliverTo e) w).relay = w.relay.tell e.changes as := by
    induction as generalizing w with
    | nil => rfl
    | cons a as ih =>
      rw [List.foldl_cons, ih, relay_deliverTo]
      rfl
  exact told _ w

theorem relay_unsubscribe (w : World) (id : Nat) :
    (w.unsubscribe id).relay = w.relay.next (.unsubscribe id) := rfl

end World

end PluginRegistry.Live
