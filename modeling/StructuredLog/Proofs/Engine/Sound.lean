import StructuredLog.Proofs.Engine.Operations

/-!
What holds of an engine at any time. Instances have distinct names, and there are none unless the
engine runs; and from its first start on an engine keeps the one buffer that was handed out then, so
that no record is ever lost for want of a buffer.
-/

namespace StructuredLog.Engine

open Record (Buffer Pool Fields)

variable {S W : Type}

/-- The buffer for records: there is none before the first start, and one from then on. -/
inductive HasSlot : Option Nat → List Buffer → Prop where
  | before : HasSlot none []
  | since (b : Buffer) : HasSlot (some 1) [b]

structure Sound (e : Engine S W) : Prop where
  names : (Table.keys e.instances).Nodup
  running : e.instances ≠ [] → e.isStarted = true
  slot : HasSlot e.slot e.pool.slots
  ready : e.isStarted = true → e.slot = some 1
  capacity : e.pool.capacity = Pool.usualCapacity

theorem HasSlot.of_length {slot : Option Nat} {old new : List Buffer} (has : HasSlot slot old)
    (same : new.length = old.length) : HasSlot slot new := by
  cases has with
  | before =>
    rw [List.eq_nil_of_length_eq_zero same]
    exact .before
  | since b =>
    obtain ⟨other, single⟩ := List.length_eq_one_iff.mp same
    rw [single]
    exact .since other

theorem HasSlot.size_le {slot : Option Nat} {buffers : List Buffer} (has : HasSlot slot buffers) :
    buffers.length ≤ 1 := by
  cases has with
  | before => exact Nat.zero_le 1
  | since b => exact Nat.le_refl 1

theorem Sound.buffer {e : Engine S W} (sound : Sound e) (started : e.isStarted = true) :
    e.slot = some 1 ∧ ∃ b, e.pool.buffer 1 = .ok b := by
  have slot := sound.slot
  have held := sound.ready started
  refine ⟨held, ?_⟩
  rw [held] at slot
  unfold Pool.buffer
  cases same : e.pool.slots with
  | nil =>
    rw [same] at slot
    cases slot
  | cons b rest => exact ⟨b, rfl⟩

theorem new_sound (d : Design S W) : Sound d.engine where
  names := List.nodup_nil
  running := fun nonempty => absurd rfl nonempty
  slot := .before
  ready := fun started => by cases started
  capacity := rfl

/-- Changes that leave the names, the application and the pool's shape as they are. -/
theorem Sound.of_same {e next : Engine S W} (sound : Sound e)
    (names : Table.keys next.instances = Table.keys e.instances) (app : next.app = e.app)
    (slot : next.slot = e.slot) (size : next.pool.slots.length = e.pool.slots.length)
    (capacity : next.pool.capacity = e.pool.capacity) : Sound next where
  names := names ▸ sound.names
  running := by
    intro nonempty
    rw [isStarted, app]
    apply sound.running
    intro empty
    rw [empty] at names
    exact nonempty (List.map_eq_nil_iff.mp names)
  slot := slot ▸ sound.slot.of_length size
  ready := by
    intro started
    rw [isStarted, app] at started
    rw [slot]
    exact sound.ready started
  capacity := capacity.trans sound.capacity

theorem Sound.of_still {e next : Engine S W} (sound : Sound e)
    (instances : next.instances = e.instances) (app : next.app = e.app)
    (slot : next.slot = e.slot) (pool : next.pool = e.pool) : Sound next :=
  sound.of_same (instances ▸ rfl) app slot (pool ▸ rfl) (pool ▸ rfl)

theorem walk_carried {C : Type} {visit : C → Instance S W → Visit C S W} {P : C → Prop}
    (kept : ∀ carried i, P carried → P (visit carried i).carried) (carried : C)
    (table : Table (Instance S W)) (initial : P carried) :
    P (walk visit carried table).carried := by
  induction table generalizing carried with
  | nil => exact initial
  | cons entry rest ih =>
    rcases entry with ⟨name, i⟩
    by_cases stops : (visit carried i).stops
    · simpa only [walk, stops, ↓reduceIte] using kept carried i initial
    · simpa only [walk, stops, Bool.false_eq_true, ↓reduceIte] using
        ih _ (kept carried i initial)

theorem fill?_shape {pool next : Pool} {slot : Option Nat} {change : Buffer → Buffer}
    {data : Text.Bytes} (filled : fill? pool slot change = some (data, next)) :
    next.slots.length = pool.slots.length ∧ next.capacity = pool.capacity := by
  unfold fill? at filled
  split at filled
  · cases filled
  · split at filled
    · cases filled
      exact ⟨List.length_set, rfl⟩
    · cases filled

variable [Handler S]

theorem deliver_shape (setting : Nat → Setting) (slot : Option Nat) (lines : List String)
    (m : Message) (pool : Pool) (i : Instance S W) :
    (deliver setting slot lines m pool i).carried.slots.length = pool.slots.length ∧
      (deliver setting slot lines m pool i).carried.capacity = pool.capacity := by
  have offered : (offer setting slot m pool i).carried.slots.length = pool.slots.length ∧
      (offer setting slot m pool i).carried.capacity = pool.capacity := by
    unfold offer
    split
    · exact ⟨rfl, rfl⟩
    · next data next filled =>
      split at filled
      · exact fill?_shape filled
      · cases filled
  have traced : ∀ v : Visit Pool S W, (trace lines m v).carried = v.carried := by
    intro v
    unfold trace
    split <;> rfl
  unfold deliver
  split
  · exact ⟨rfl, rfl⟩
  · by_cases stops : (offer setting slot m pool i).stops
    · simpa only [stops, ↓reduceIte] using offered
    · simpa only [stops, Bool.false_eq_true, ↓reduceIte, traced] using offered

theorem log_pool (host : Host) (e : Engine S W) (s : Severity) (options : Options)
    (fields : Fields) :
    (e.log host s options fields).1.pool.slots.length = e.pool.slots.length ∧
      (e.log host s options fields).1.pool.capacity = e.pool.capacity := by
  have step : ∀ (pool : Pool) (i : Instance S W),
      pool.slots.length = e.pool.slots.length ∧ pool.capacity = e.pool.capacity →
      let v := deliver (e.setting host) e.slot (Stack.enclose host.frames) ⟨s, options, fields⟩
        pool i
      v.carried.slots.length = e.pool.slots.length ∧ v.carried.capacity = e.pool.capacity := by
    intro pool i before v
    have shape := deliver_shape (e.setting host) e.slot (Stack.enclose host.frames)
      ⟨s, options, fields⟩ pool i
    exact ⟨shape.1.trans before.1, shape.2.trans before.2⟩
  exact walk_carried step e.pool e.instances ⟨rfl, rfl⟩

theorem log_sound (host : Host) {e : Engine S W} (sound : Sound e) (s : Severity)
    (options : Options) (fields : Fields) : Sound (e.log host s options fields).1 := by
  have shape := log_pool host e s options fields
  exact sound.of_same (log_quiet host e s options fields).keys rfl rfl shape.1 shape.2

theorem refuse_sound (host : Host) {e : Engine S W} (sound : Sound e) (error : Error)
    (before : List (Event S)) : Sound (e.refuse host error before).engine :=
  log_sound host sound .error .none (refusalFields error)

theorem logRaw_sound {e : Engine S W} (sound : Sound e) (s : Severity) (options : Options)
    (data : Text.Bytes) : Sound (e.logRaw s options data).1 :=
  sound.of_same (logRaw_quiet e s options data).keys rfl rfl rfl rfl

theorem display_sound {e : Engine S W} (sound : Sound e) (s : Severity) (lines : List String) :
    Sound (e.display s lines).1 :=
  sound.of_same (display_quiet e s lines).keys rfl rfl rfl rfl

omit [Handler S] in
/-- The first start hands out the only buffer; there is always room for it. -/
theorem withSlot_ok {e : Engine S W} (sound : Sound e) :
    ∃ pool b, e.withSlot = (.ok 1, pool) ∧ pool.slots = [b] ∧
      pool.capacity = Pool.usualCapacity := by
  have slot := sound.slot
  unfold withSlot
  cases held : e.slot with
  | none =>
    rw [held] at slot
    cases same : e.pool.slots with
    | nil =>
      have room : e.pool.size < e.pool.capacity := by
        rw [Pool.size, same, sound.capacity]
        decide
      refine ⟨{ e.pool with slots := [Buffer.fresh false] }, Buffer.fresh false, ?_, rfl,
        sound.capacity⟩
      simp only [Pool.acquire, if_pos room]
      simp only [Pool.size, same, List.length_nil, Nat.zero_add, List.nil_append]
    | cons b rest =>
      rw [same] at slot
      cases slot
  | some h =>
    rw [held] at slot
    cases same : e.pool.slots with
    | nil =>
      rw [same] at slot
      cases slot
    | cons b rest =>
      rw [same] at slot
      cases slot
      exact ⟨e.pool, b, rfl, same, sound.capacity⟩

theorem startup_sound (host : Host) {e : Engine S W} (sound : Sound e) (app : AppInfo) :
    Sound (e.startup host app).engine := by
  rcases startup_cases host e app with
    ⟨error, _, same⟩ | ⟨error, pool, full, -⟩ | ⟨h, pool, _, found, same⟩
  · rw [same]
    exact refuse_sound host sound error []
  · obtain ⟨pool', b, given, -⟩ := withSlot_ok sound
    rw [full] at given
    cases given
  · obtain ⟨pool', b, given, single, capacity⟩ := withSlot_ok sound
    rw [found] at given
    cases given
    rw [same]
    refine ⟨sound.names, fun _ => rfl, ?_, fun _ => rfl, capacity⟩
    simp only [single]
    exact .since b

theorem register_sound (host : Host) {e : Engine S W} (sound : Sound e) (t : HandlerType S W) :
    Sound (e.register host t).engine := by
  rcases register_cases host e t with ⟨error, _, same⟩ | ⟨_, same⟩
  · rw [same]
    exact refuse_sound host sound error []
  · rw [same]
    exact sound.of_still rfl rfl rfl rfl

theorem add_sound (host : Host) {e : Engine S W} (sound : Sound e) (name type : String)
    (options : Options) (handle : Handle S) :
    Sound (e.add host name type options handle).engine := by
  rcases add_cases host e name type options handle with ⟨error, _, same⟩ | ⟨t, found, same⟩
  · rw [same]
    exact refuse_sound host sound error [.closed handle]
  · obtain ⟨started, absent, _⟩ := typeFor_ok found
    rw [same]
    refine ⟨?_, fun _ => started, sound.slot, fun _ => sound.ready started, sound.capacity⟩
    simp only [Table.keys, List.map_append, List.map_cons, List.map_nil]
    rw [List.nodup_append]
    refine ⟨sound.names, List.pairwise_singleton _ name, ?_⟩
    intro old member new single
    rw [List.mem_singleton.mp single]
    exact fun equal => absent (equal ▸ member)

theorem openHandler_sound (host : Host) {e : Engine S W} (sound : Sound e) (surroundings : W)
    (name type : String) (options : Options) (params : Json.Value) :
    Sound (e.openHandler host surroundings name type options params).1.engine := by
  rcases openHandler_cases host e surroundings name type options params with
    ⟨_, ⟨error, _, same⟩ | ⟨error, _, same⟩⟩ | ⟨handle, _, same⟩
  · rw [same]
    exact refuse_sound host sound error []
  · rw [same]
    exact sound
  · rw [same]
    exact add_sound host sound name type options handle

omit [Handler S] in
theorem remove_sound {e : Engine S W} (sound : Sound e) (name : String) :
    Sound (e.remove name).engine := by
  obtain ⟨kept, removed, same, order, _⟩ := remove_cases e name sound.names
  rw [same]
  refine ⟨sound.names.sublist (order.map Prod.fst), ?_, sound.slot, sound.ready, sound.capacity⟩
  intro nonempty
  apply sound.running
  intro empty
  rw [empty] at order
  exact nonempty (List.sublist_nil.mp order)

omit [Handler S] in
theorem shutdown_sound {e : Engine S W} (sound : Sound e) : Sound e.shutdown.engine where
  names := (remove_sound sound "").names
  running := by
    intro nonempty
    exact absurd rfl nonempty
  slot := (remove_sound sound "").slot
  ready := fun started => by cases started
  capacity := (remove_sound sound "").capacity

theorem outcome_sound (e : Engine S W) (c : Call S W) (sound : Sound e) :
    Sound (c.outcome e).engine := by
  rcases c with ⟨host, operation⟩
  cases operation with
  | startup app => exact startup_sound host sound app
  | register type => exact register_sound host sound type
  | add name type options handle => exact add_sound host sound name type options handle
  | openHandler surroundings name type options params =>
    exact openHandler_sound host sound surroundings name type options params
  | remove name => exact remove_sound sound name
  | shutdown => exact shutdown_sound sound
  | log severity options fields => exact log_sound host sound severity options fields
  | logRaw severity options data => exact logRaw_sound sound severity options data
  | say severity text => exact logRaw_sound sound severity .none _
  | displayBytes data label => exact display_sound sound .debug _
  | displayDocument document label => exact display_sound sound .debug _
  | displayHex data label => exact display_sound sound .debug _
  | resetCounters => exact sound.of_still rfl rfl rfl rfl
  | setInforms informs => exact sound.of_still rfl rfl rfl rfl

theorem after_sound (e : Engine S W) (calls : List (Call S W)) (sound : Sound e) :
    Sound (e.after calls) :=
  after_invariant outcome_sound e calls sound

theorem run_sound (d : Design S W) (calls : List (Call S W)) : Sound (d.run calls) :=
  after_sound d.engine calls (new_sound d)

end StructuredLog.Engine
