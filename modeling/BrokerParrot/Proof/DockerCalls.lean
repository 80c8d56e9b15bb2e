import BrokerParrot.Docker

/-!
# What the calls to the daemon do

One lemma for each request about the container it names, and one about calls in general: a call that
fails leaves the daemon as it was. Last, how a log comes apart into the payloads of its frames.
-/

namespace BrokerParrot

open List

variable {request : DockerRequest} {world : DockerWorld}

namespace Daemon

variable {daemon : Daemon} {name : String} {container : Container}

theorem get?_put : (daemon.put name container).containers.get? name = some container :=
  OrdDict.get?_insert_self _ _ _

theorem handle_missing (hnone : daemon.containers.get? name = none) :
    daemon.handle (.inspect name) = (daemon, noSuchContainer name) := by
  simp only [handle, hnone]

theorem handle_create (hnone : daemon.containers.get? name = none) (body : CreateBody) :
    (daemon.handle (.create name body)).2.status = 201 ∧
      ∃ id, (daemon.handle (.create name body)).1.containers.get? name = some (body.build id) := by
  simp only [handle, hnone, true_and]
  exact ⟨_, get?_put⟩

section

variable (hget : daemon.containers.get? name = some container)

include hget

theorem handle_inspect :
    daemon.handle (.inspect name) = (daemon, ⟨200, .container container⟩) := by
  simp only [handle, hget]

theorem handle_stop (seconds : ℕ) :
    (daemon.handle (.stop name seconds)).2.status < 400 ∧
      (daemon.handle (.stop name seconds)).1.containers.get? name =
        some { container with running := false } := by
  simp only [handle, hget]
  cases hrunning : container.running with
  | true => exact ⟨show 204 < 400 by decide, get?_put⟩
  | false =>
    refine ⟨show 304 < 400 by decide, hget.trans ?_⟩
    rw [← hrunning]

theorem handle_remove :
    (daemon.handle (.remove name)).2.status = 204 ∧
      (daemon.handle (.remove name)).1.containers.get? name = none := by
  simp only [handle, hget]
  exact ⟨rfl, OrdDict.get?_erase_self _ _⟩

theorem handle_create_taken (body : CreateBody) :
    (daemon.handle (.create name body)).2.status = 409 ∧
      (daemon.handle (.create name body)).1 = daemon := by
  simp only [handle, hget, and_self]

theorem handle_connect (network : String) (endpoint : Endpoint) :
    (daemon.handle (.connect network name endpoint)).1.containers.get? name =
      some { container with networks := container.networks.insert network endpoint } := by
  simp only [handle, hget]
  exact get?_put

theorem handle_start (hstopped : container.running = false) :
    (daemon.handle (.start name)).2.status = 204 ∧
      (daemon.handle (.start name)).1.containers.get? name =
        some { container with running := true } := by
  simp only [handle, hget, hstopped]
  exact ⟨rfl, get?_put⟩

end

end Daemon

/-! ### Calls that can fail -/

def DockerFault.result : DockerFault → Except ApiError DockerReply
  | .status code _ body => .ok ⟨code, .json body⟩
  | .raise error => .error error

structure Called (request : DockerRequest) (world : DockerWorld)
    (result : Except ApiError DockerReply) (after : DockerWorld) : Prop where
  faults : after.faults = world.faults
  calls : after.calls = world.calls + 1
  done : world.faults world.calls = none ∧ after.daemon = (world.daemon.handle request).1 ∧
      result = .ok (world.daemon.handle request).2 ∨
    ∃ fault, world.faults world.calls = some fault ∧ after.daemon = world.daemon ∧
      result = fault.result

theorem runs_dockerApi (request : DockerRequest) (world : DockerWorld) :
    (dockerApi request).Runs (Called request world) world := by
  have halone : (dockerApi request).alone world =
      some ((world.answer request).2, (world.answer request).1) := by
    change (Prog.ofExcept (world.answer request).2).alone (world.answer request).1 = _
    cases (world.answer request).2 <;> rfl
  refine ⟨_, _, halone, ?_⟩
  cases hfault : world.faults world.calls with
  | none =>
    have hanswer : world.answer request =
        ({ world with daemon := (world.daemon.handle request).1, calls := world.calls + 1 },
          .ok (world.daemon.handle request).2) := by
      simp only [DockerWorld.answer, hfault]
    rw [hanswer]
    exact ⟨rfl, rfl, Or.inl ⟨hfault, rfl, rfl⟩⟩
  | some fault =>
    have hanswer : world.answer request =
        ({ world with calls := world.calls + 1 }, fault.result) := by
      cases fault <;> simp only [DockerWorld.answer, hfault, DockerFault.result]
    rw [hanswer]
    exact ⟨rfl, rfl, Or.inr ⟨fault, hfault, rfl, rfl⟩⟩

namespace Called

variable {after : DockerWorld} {result : Except ApiError DockerReply}

theorem of_error {error : ApiError} (hcalled : Called request world (.error error) after) :
    world.faults world.calls = some (.raise error) ∧ after.daemon = world.daemon := by
  rcases hcalled.done with ⟨-, -, hresult⟩ | ⟨fault, hfault, hdaemon, hresult⟩
  · cases hresult
  · cases fault with
    | status => cases hresult
    | raise =>
      obtain rfl := Except.error.inj hresult
      exact ⟨hfault, hdaemon⟩

theorem of_ok {reply : DockerReply} (hcalled : Called request world (.ok reply) after) :
    world.faults world.calls = none ∧ after.daemon = (world.daemon.handle request).1 ∧
        reply = (world.daemon.handle request).2 ∨
      (∃ code herror body, world.faults world.calls = some (.status code herror body) ∧
        reply = ⟨code, .json body⟩) ∧ after.daemon = world.daemon := by
  rcases hcalled.done with ⟨hnone, hdaemon, hresult⟩ | ⟨fault, hfault, hdaemon, hresult⟩
  · exact Or.inl ⟨hnone, hdaemon, Except.ok.inj hresult⟩
  · cases fault with
    | status code herror body =>
      exact Or.inr ⟨⟨code, herror, body, hfault, Except.ok.inj hresult⟩, hdaemon⟩
    | raise => cases hresult

theorem of_none (hcalled : Called request world result after)
    (hnone : world.faults world.calls = none) :
    after.daemon = (world.daemon.handle request).1 ∧
      result = .ok (world.daemon.handle request).2 := by
  rcases hcalled.done with ⟨-, hdone⟩ | ⟨fault, hfault, -⟩
  · exact hdone
  · rw [hnone] at hfault
    cases hfault

theorem of_some (hcalled : Called request world result after) {fault : DockerFault}
    (hfault : world.faults world.calls = some fault) :
    after.daemon = world.daemon ∧ result = fault.result := by
  rcases hcalled.done with ⟨hnone, -⟩ | ⟨other, hother, hdone⟩
  · rw [hnone] at hfault
    cases hfault
  · obtain rfl := Option.mem_unique hother hfault
    exact hdone

end Called

theorem runs_dockerApi_bind {α : Type} {next : DockerReply → DockerProg α}
    {post : Except ApiError α → DockerWorld → Prop} (hnone : world.faults world.calls = none)
    (hnext : ∀ after, after.faults = world.faults → after.calls = world.calls + 1 →
      after.daemon = (world.daemon.handle request).1 →
        (next (world.daemon.handle request).2).Runs post after) :
    (dockerApi request >>= next).Runs post world := by
  refine (runs_dockerApi request world).bind (fun reply after hcalled => ?_)
    fun error after hcalled => ?_
  · obtain ⟨hdaemon, hreply⟩ := hcalled.of_none hnone
    cases hreply
    exact hnext after hcalled.faults hcalled.calls hdaemon
  · cases (hcalled.of_none hnone).2

/-! ### The frames of a log -/

structure Frame where
  stream : UInt8
  payload : List UInt8
  known : stream ∈ [0, 1, 2]
  short : payload.length < 2 ^ 32

namespace Frame

def header (frame : Frame) : List UInt8 :=
  [frame.stream, 0, 0, 0] ++
    [2 ^ 24, 2 ^ 16, 2 ^ 8, 1].map fun weight => UInt8.ofNat (frame.payload.length / weight)

def bytes (frame : Frame) : List (Bool × UInt8) :=
  frame.header.map (false, ·) ++ frame.payload.map (true, ·)

theorem startsFrame_header (frame : Frame) (rest : List UInt8) :
    startsFrame (frame.header ++ rest) = true := by
  simpa [header, startsFrame] using frame.known

theorem frameSize_header (frame : Frame) (rest : List UInt8) :
    frameSize (frame.header ++ rest) = frame.payload.length := by
  have hshort := frame.short
  simp [header, frameSize, fromBytesBig]
  omega

theorem demuxFrames_header (frame : Frame) (rest : List UInt8) :
    demuxFrames (frame.header ++ rest) =
      rest.take frame.payload.length ++ demuxFrames (rest.drop frame.payload.length) := by
  have hlength : frame.header.length = 8 := rfl
  rw [demuxFrames, if_neg (by simp [hlength]), if_pos (frame.startsFrame_header rest),
    frameSize_header, ← drop_drop, drop_left' hlength]

end Frame

def payloadOf (bytes : List (Bool × UInt8)) : List UInt8 := (bytes.filter Prod.fst).map Prod.snd

theorem payloadOf_append (left right : List (Bool × UInt8)) :
    payloadOf (left ++ right) = payloadOf left ++ payloadOf right := by
  simp [payloadOf]

theorem payloadOf_marked (mark : Bool) (bytes : List UInt8) :
    payloadOf (bytes.map (mark, ·)) = if mark then bytes else [] := by
  cases mark <;> simp [payloadOf, filter_map, Function.comp_def]

theorem take_frames (frame : Frame) (tail : List (Bool × UInt8)) (more : ℕ) :
    (frame.bytes ++ tail).take (8 + more) =
      frame.header.map (false, ·) ++ (frame.payload.map (true, ·) ++ tail).take more := by
  have hlength : (frame.header.map (false, ·)).length = 8 := rfl
  rw [Frame.bytes, append_assoc, ← hlength, take_length_add_append]

theorem demuxFrames_cut (frames : List Frame) (cut : ℕ) :
    demuxFrames (((frames.flatMap Frame.bytes).take cut).map Prod.snd) =
      payloadOf ((frames.flatMap Frame.bytes).take cut) := by
  induction frames generalizing cut with
  | nil => simp [demuxFrames, payloadOf]
  | cons frame rest ih =>
    rw [flatMap_cons]
    by_cases hcut : cut < 8
    · -- the cut is in the first header
      have hlength : (frame.header.map (false, ·)).length = 8 := rfl
      rw [Frame.bytes, append_assoc, take_append_of_le_length (hlength ▸ hcut.le),
        ← map_take, payloadOf_marked, demuxFrames, if_pos (by simp [hcut])]
      rfl
    · obtain ⟨more, rfl⟩ := Nat.exists_eq_add_of_le (not_lt.mp hcut)
      have hpayload : (frame.payload.map (true, ·)).length = frame.payload.length := by simp
      rw [take_frames, map_append, payloadOf_append, payloadOf_marked]
      change demuxFrames (frame.header ++ _) = [] ++ _
      rw [frame.demuxFrames_header, ← map_take, ← map_drop, drop_take,
        drop_left' hpayload, ih, take_take, Nat.min_comm, ← take_take,
        take_left' hpayload, take_append, hpayload, payloadOf_append, ← map_take,
        payloadOf_marked]
      simp

/-- **The frames of a log.** Of a log cut at a length of at least a header, the text is that of the
payload bytes before the cut. -/
theorem demux_stream_payload (decode : List UInt8 → String) (hempty : decode [] = "")
    (frames : List Frame) (cut : ℕ) (hcut : 8 ≤ cut) :
    demuxStream decode (((frames.flatMap Frame.bytes).take cut).map Prod.snd) =
      decode (payloadOf ((frames.flatMap Frame.bytes).take cut)) := by
  rw [← demuxFrames_cut]
  cases frames with
  | nil => simp [demuxStream, demuxFrames, hempty]
  | cons frame rest =>
    obtain ⟨more, rfl⟩ := Nat.exists_eq_add_of_le hcut
    rw [flatMap_cons, take_frames, map_append]
    change demuxStream decode (frame.header ++ _) = _
    unfold demuxStream
    rw [if_neg (by simp [Frame.header]), if_neg]
    · rfl
    · rw [frame.startsFrame_header]
      simp [Frame.header]

theorem demux_stream_payload_cut : demuxStream (fun bytes => String.ofList (bytes.map
    fun byte => Char.ofNat byte.toNat)) [1, 0, 0, 0, 0, 0, 0, 2, 104, 105, 2, 0] = "hi" :=
  (demux_stream_payload _ rfl [⟨1, [104, 105], by decide, by decide⟩, ⟨2, [], by decide, by decide⟩]
    12 (by decide)).trans rfl

end BrokerParrot
