import Thaw.Proofs.Environment.Entries
import Thaw.Proofs.Parameters.HandOver
import Thaw.Proofs.Resume.Payload
import Thaw.Proofs.Segment.Transfer
import Thaw.Session

namespace Thaw
set_option autoImplicit true

open Parameters (take)
open Restore (exportName prepare)
open Segment (Memory WritePolicy Step)

theorem Environment.getText?_setText_self (env : Environment) (name value : String) :
    (env.setText name value).getText? name = some (Bytes.ofString value) :=
  (get?_set _ _ _ _).trans (if_pos rfl)

theorem Hook.text?_of_getText? {env : Environment}
    (h : env.getText? name = some (Bytes.ofString value)) : Hook.text? env name = some value := by
  rw [Hook.text?, h, Option.bind_some, (Text.Utf8.decode_eq_ok_iff _ value).2 rfl]
  rfl

namespace Parameters

/-- What a hand-over makes of a memory, by whether there is room for a segment and by its result. -/
inductive HandedOver (p : Parameters) (id : Int32) (m : Memory) :
    Bool → Memory → Except ChannelError Unit → Prop where
  | delivered {object : Nat} (hencode : p.encode = .ok b) (hid : after.lookup? id = some object)
    (hcontent : after.content object = b)
    (hothers : ∀ other, other ≠ id → after.lookup? other = m.lookup? other) :
    HandedOver p id m true after (.ok ())
  | withdrawn (e : ChannelError) (hid : after.lookup? id = none)
    (hothers : ∀ other, other ≠ id → after.lookup? other = m.lookup? other) :
    HandedOver p id m true after (.error e)
  | notCreated (e : ChannelError) : HandedOver p id m false m (.error e)

variable {m created after : Memory} {room : Bool} {id other : Int32} {p : Parameters}

theorem lookup?_handOver_of_ne {h object : Nat} (hne : other ≠ id)
    (hcreate : m.create true id = .ok (created, h)) (hid : created.lookup? id = some object)
    (a : created.Appending h object []) (policy : WritePolicy) :
    (p.handOver policy m true id).1.lookup? other = m.lookup? other := by
  have hcreated := (Segment.Memory.beside_create hcreate hid).names other hne
  obtain ⟨hnames, -⟩ := writeTo_appends (p := p) a policy
  rcases hw : p.writeTo policy created h with ⟨written, result⟩
  rw [hw] at hnames
  have hwritten (other : Int32) : written.lookup? other = created.lookup? other := by
    rw [Memory.lookup?, hnames]
    rfl
  cases result with
  | ok =>
    rw [handOver_of_written hcreate hw]
    exact (hwritten other).trans hcreated
  | error e =>
    rw [handOver_of_failed hcreate hw ((hwritten id).trans hid)]
    apply (Segment.Memory.lookup?_dropName_ne hne).trans
    exact (hwritten other).trans hcreated

theorem handedOver {start : Memory} (hstart : start.AtRest) (before : List Step)
    (hm : m = start.run before) (policy : WritePolicy) (room : Bool) (id : Int32) (p : Parameters) :
    p.HandedOver id m room (p.handOver policy m room id).1 (p.handOver policy m room id).2 := by
  cases room with
  | false => exact .notCreated _
  | true =>
    obtain ⟨origins, tstart⟩ := hstart.traced
    obtain ⟨origins', t⟩ := tstart.run before
    rw [← hm] at t
    obtain ⟨created, h, hcreate⟩ := m.exists_create id
    obtain ⟨object, hid, a⟩ := Segment.Memory.create_appending
      (fun object ho => t.object_lt (t.named id object ho)) hcreate
    have hothers (other : Int32) (hne : other ≠ id) :=
      lookup?_handOver_of_ne (p := p) hne hcreate hid a policy
    obtain ⟨hok, hp, hnamed, hcontent⟩ | ⟨⟨e, herror⟩, hunnamed, -⟩ :=
      handOver_leaves (p := p) hcreate hid a policy
    · rw [hok]
      exact .delivered ((encode_eq_ok_iff p).2 ⟨hp, rfl⟩) hnamed hcontent hothers
    · rw [herror]
      exact .withdrawn e hunnamed hothers

theorem HandedOver.of_ok (h : p.HandedOver id m room after (.ok ())) :
    ∃ b object, p.encode = .ok b ∧ after.lookup? id = some object ∧ after.content object = b ∧
      (take after .granted id).2 = .ok p := by
  cases h with
  | delivered hencode hid hcontent =>
    refine ⟨_, _, hencode, hid, hcontent, ?_⟩
    rw [take_of_named rfl rfl hid, hcontent, decode_of_begins hencode List.prefix_rfl]
    rfl

theorem HandedOver.of_error (h : p.HandedOver id m room after (.error e)) :
    (room = true → after.lookup? id = none) ∧ (room = false → after = m) := by
  cases h with
  | withdrawn _ hid => exact ⟨fun _ => hid, nofun⟩
  | notCreated => exact ⟨nofun, fun _ => rfl⟩

theorem HandedOver.lookup?_of_ne {result : Except ChannelError Unit}
    (h : p.HandedOver id m room after result) (hne : other ≠ id) :
    after.lookup? other = m.lookup? other := by
  cases h with
  | delivered _ _ _ hothers | withdrawn _ _ hothers => exact hothers other hne
  | notCreated => rfl

end Parameters

namespace Restore

/-- The export tells of the hand-over: the number of the process where it succeeded, and nothing where
it failed. -/
def Tells (pid : Int32) (result : Except ChannelError Unit) (env : Environment) : Prop :=
  env.getText? exportName = match result with
    | .ok () => some (Bytes.ofString (toString pid.toInt))
    | .error _ => none

variable {env : Environment} {memory after : Memory} {pid : Int32}

theorem prepare_of_delivered
    (h : (Parameters.capture env properties arguments now).handOver policy memory room pid =
      (after, .ok ())) : prepare policy memory room pid env properties arguments now =
      ⟨after, env.setText exportName (toString pid.toInt)⟩ := by
  simp only [prepare, h]

theorem prepare_of_failed
    (h : (Parameters.capture env properties arguments now).handOver policy memory room pid =
      (after, .error e)) : prepare policy memory room pid env properties arguments now =
      ⟨after, env⟩ := by
  simp only [prepare, h]

/-- Whatever becomes of the hand-over, the engine is started in the environment of the process with at
most the export changed. Where the parameters were handed over, the export is the number of the
process, the segment of that number holds all of them, and the hook puts the number on the signal.
Where they were not, a segment that was begun is gone again, and the export is what it was when the
process started: so it tells of the hand-over exactly where the process was not given one itself. -/
theorem restore_exports_or_inherits {start : Memory} (hstart : start.AtRest) (before : List Step)
    (host : Host) {m : Machine} (hm : m.memory = start.run before) (engine : Engine) (dir : String)
    (properties : List String) (arguments : String) :
    let p := Parameters.capture m.environment properties arguments m.now
    let result := (p.handOver host.writes m.memory host.room m.pid).2
    let left := prepare host.writes m.memory host.room m.pid m.environment properties arguments m.now
    let started := { m with memory := left.memory, environment := left.environment }
    (Session.restore host m engine dir properties arguments =
      (started, (host.exec started engine.path (Engine.restoreArguments dir)).mapError fun cause =>
        .execFailed engine.path cause.message)) ∧
    (result = .ok () →
      left.environment.getText? exportName = some (Bytes.ofString (toString m.pid.toInt)) ∧
      resumePayload? (Hook.text? left.environment exportName) = some m.pid ∧
      ∃ b object, p.encode = .ok b ∧ left.memory.lookup? m.pid = some object ∧
        left.memory.content object = b ∧ (take left.memory .granted m.pid).2 = .ok p) ∧
    (∀ e, result = .error e → left.environment = m.environment ∧
      (host.room = true → left.memory.lookup? m.pid = none) ∧
      (host.room = false → left.memory = m.memory)) ∧
    (∀ name, name ≠ Bytes.ofString exportName →
      left.environment.get? name = m.environment.get? name) ∧
    (∀ other, other ≠ m.pid → left.memory.lookup? other = m.memory.lookup? other) ∧
    (Tells m.pid result left.environment ↔
      result = .ok () ∨ m.environment.getText? exportName = none) := by
  intro p result left started
  refine ⟨rfl, ?_⟩
  have hhanded := Parameters.handedOver hstart before hm host.writes host.room m.pid p
  rcases hh : p.handOver host.writes m.memory host.room m.pid with ⟨after, r⟩
  have hresult : result = r := congrArg Prod.snd hh
  rw [hh] at hhanded
  cases r with
  | ok =>
    have hleft : left = ⟨after, m.environment.setText exportName (toString m.pid.toInt)⟩ :=
      prepare_of_delivered hh
    have hexport := m.environment.getText?_setText_self exportName (toString m.pid.toInt)
    rw [hleft, hresult]
    refine ⟨?_, ?_, ?_, ?_, ?_⟩
    · intro _
      refine ⟨hexport, ?_, hhanded.of_ok⟩
      rw [Hook.text?_of_getText? hexport]
      exact resumePayload?_toString m.pid
    · intro e he
      cases he
    · intro name hne
      exact (Environment.get?_set _ _ _ _).trans (if_neg hne)
    · intro other hne
      exact hhanded.lookup?_of_ne hne
    · exact iff_of_true hexport (.inl rfl)
  | error e =>
    have hleft : left = ⟨after, m.environment⟩ := prepare_of_failed hh
    rw [hleft, hresult]
    refine ⟨?_, ?_, ?_, ?_, ?_⟩
    · intro hok
      cases hok
    · intro _ _
      exact ⟨rfl, hhanded.of_error⟩
    · intro name _
      rfl
    · intro other hne
      exact hhanded.lookup?_of_ne hne
    · simp [Tells]

def informed : Machine :=
  .start .empty "/" "/usr" ⟨[(Bytes.ofString exportName, Bytes.ofString "930001")]⟩ 77 1 ⟨1, 2⟩

theorem restore_exports_or_inherits_informed :
    let left := prepare .unlimited informed.memory true informed.pid informed.environment ["a=1"] "x"
      informed.now
    Memory.AtRest .empty ∧ informed.memory = Memory.run .empty [] ∧
      left.environment.getText? exportName = some (Bytes.ofString "77") ∧
      resumePayload? (Hook.text? left.environment exportName) = some 77 := by
  intro left
  obtain ⟨-, hdelivered, -⟩ := restore_exports_or_inherits Segment.Memory.atRest_empty [] .idle
    (m := informed) rfl ⟨"criuengine"⟩ "/img" ["a=1"] "x"
  obtain ⟨hexport, hpayload, -⟩ := hdelivered rfl
  exact ⟨Segment.Memory.atRest_empty, rfl, hexport, hpayload⟩

/-- Where no file may grow, nothing can be handed over, and the engine is told of a segment that this
process did not make. -/
theorem restore_inherits_stale_export :
    let host := { Host.idle with writes := .sizeLimit 0 }
    let started := (Session.restore host informed ⟨"criuengine"⟩ "/img" ["a=1"] "x").1
    started.environment.getText? exportName = some (Bytes.ofString "930001") ∧
      resumePayload? (Hook.text? started.environment exportName) = some 930001 ∧
      started.memory.lookup? 930001 = none ∧ started.memory.lookup? started.pid = none := by
  intro host started
  have hexport : started.environment.getText? exportName = some (Bytes.ofString "930001") := by
    decide +kernel
  refine ⟨hexport, ?_, by decide +kernel, by decide +kernel⟩
  rw [Hook.text?_of_getText? hexport]
  decide +kernel

end Restore

end Thaw
