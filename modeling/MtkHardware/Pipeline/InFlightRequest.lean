import MtkHardware.Pipeline.FrameConfig
import MtkHardware.Util.Lists

/-!
# Requests in Flight

`InFlightRequest` lists the frames that are registered and not released, and for each node the
frames that have outputs there and have not released their output metadata, or images. Frames
are listed by their numbers. A frame takes itself off the lists by its messages, and callers wait
until lists are empty: what they do between two looks at the lists is one step, and a caller may
look again at any time, since it may be woken at any time.

A frame is told apart by the index of its registration; it sends messages from then on, since
it is registered with its listener. The history of a run is part of the state: the frames that
have been registered, and the messages that have arrived.
-/

namespace MtkHardware.Pipeline

def INode.hasOutputs (out : INode) : Bool :=
  decide (0 < out.oImage.length) || decide (0 < out.oMeta.length)

structure PipelineFrame where
  getFrameNo : ℕ
  /-- The nodes of its graph, in topological order. -/
  getToposort : List NodeId
  nodup : getToposort.Nodup
  /-- The streams of a node, if the frame has an IO set for it. -/
  queryIOStreamInfoSet : NodeId → Option INode

namespace PipelineFrame

def outputsAt (pFrame : PipelineFrame) (n : NodeId) : Bool :=
  decide (n ∈ pFrame.getToposort) &&
    ((pFrame.queryIOStreamInfoSet n).map INode.hasOutputs).getD false

def queried (pFrame : PipelineFrame) : List NodeId :=
  pFrame.getToposort.takeWhile fun n => (pFrame.queryIOStreamInfoSet n).isSome

end PipelineFrame

abbrev Caller := ℕ

inductive WaitCall
  | drained
  | nodeDrained (id : NodeId)
  | nodeMetaDrained (id : NodeId)
  | nodeImageDrained (id : NodeId)
  deriving DecidableEq, Repr

/-- The loop that a caller waits in. Those of a node are also those of `waitUntilNodeDrained`. -/
inductive WaitPoint
  | drained
  | nodeMeta (id : NodeId) (both : Bool)
  | nodeImage (id : NodeId) (both : Bool)
  deriving DecidableEq, Repr

abbrev RequestMap := KeyedVector NodeId (List ℕ)

structure InFlightRequest where
  mRequest : List ℕ := []
  mRequestMap_meta : RequestMap := .empty
  mRequestMap_image : RequestMap := .empty
  waiting : KeyedVector Caller WaitPoint := .empty
  /-- The frames that have been registered. -/
  registered : List PipelineFrame := []
  /-- The messages that have arrived: which frame it was, the node, and the message. -/
  delivered : List (ℕ × Option NodeId × ℕ) := []

inductive InFlightOp
  | registerRequest (pFrame : PipelineFrame)
  | onPipelineFrame (frame : ℕ) (nodeId : Option NodeId) (message : ℕ)
  | wait (caller : Caller) (call : WaitCall)
  | check (caller : Caller)

inductive InFlightEvent
  | returned (caller : Caller) (call : WaitCall)
  deriving DecidableEq, Repr

def RequestMap.pushRequest (map : RequestMap) (node : NodeId) (frameNo : ℕ) : RequestMap :=
  match map.find? node with
  | none => map.add node [frameNo]
  | some _ => map.modify node fun frameL => frameL ++ [frameNo]

/-- The list of a node, which is empty where there is none. -/
def RequestMap.valueFor (map : RequestMap) (node : NodeId) : List ℕ := (map.find? node).getD []

namespace InFlightRequest

/-- The loop of `registerRequest` over the nodes. -/
def registerNodes (pFrame : PipelineFrame) : List NodeId → InFlightRequest → InFlightRequest
  | [], s => s
  | node :: vNode, s =>
    match pFrame.queryIOStreamInfoSet node with
    | none => s
    | some out => registerNodes pFrame vNode <|
        if out.hasOutputs then
          { s with
            mRequestMap_image := s.mRequestMap_image.pushRequest node pFrame.getFrameNo
            mRequestMap_meta := s.mRequestMap_meta.pushRequest node pFrame.getFrameNo }
        else s

def registerRequest (s : InFlightRequest) (pFrame : PipelineFrame) : InFlightRequest :=
  { registerNodes pFrame pFrame.getToposort
      { s with mRequest := s.mRequest ++ [pFrame.getFrameNo] } with
    registered := s.registered ++ [pFrame] }

def onPipelineFrame (s : InFlightRequest) (frameNo : ℕ) (nodeId : Option NodeId) (message : ℕ) :
    InFlightRequest :=
  match nodeId with
  | none =>
    if message = eMSG_FRAME_RELEASED then { s with mRequest := s.mRequest.erase frameNo }
    else s
  | some nodeId =>
    if (s.mRequestMap_meta.find? nodeId).isNone && (s.mRequestMap_image.find? nodeId).isNone
    then s
    else if message = eMSG_ALL_OUT_META_BUFFERS_RELEASED then
      { s with
        mRequestMap_meta := s.mRequestMap_meta.modify nodeId fun list => list.erase frameNo }
    else if message = eMSG_ALL_OUT_IMAGE_BUFFERS_RELEASED then
      { s with
        mRequestMap_image := s.mRequestMap_image.modify nodeId fun list => list.erase frameNo }
    else s

def waitPoint : WaitCall → WaitPoint
  | .drained => .drained
  | .nodeDrained id => .nodeMeta id true
  | .nodeMetaDrained id => .nodeMeta id false
  | .nodeImageDrained id => .nodeImage id false

/-- A caller looks at the list it waits for. `waitUntilNodeDrained` waits for the metadata and
then for the images, and lets go of the lock in between. -/
def check (s : InFlightRequest) (caller : Caller) :
    Except Blocked (InFlightRequest × List InFlightEvent) :=
  let goOn : InFlightRequest × List InFlightEvent := (s, [])
  let done (call : WaitCall) : InFlightRequest × List InFlightEvent :=
    ({ s with waiting := s.waiting.remove caller }, [.returned caller call])
  match s.waiting.find? caller with
  | none => .error .blocked
  | some .drained => .ok (if s.mRequest.isEmpty then done .drained else goOn)
  | some (.nodeMeta id false) => .ok (
      if (s.mRequestMap_meta.valueFor id).isEmpty then done (.nodeMetaDrained id) else goOn)
  | some (.nodeMeta id true) => .ok (
      if (s.mRequestMap_meta.valueFor id).isEmpty then
        ({ s with waiting := s.waiting.add caller (.nodeImage id true) }, [])
      else goOn)
  | some (.nodeImage id both) => .ok (
      if (s.mRequestMap_image.valueFor id).isEmpty then
        done (if both then .nodeDrained id else .nodeImageDrained id)
      else goOn)

end InFlightRequest

/-- The requests in flight as a machine. A frame that is not registered has no listener. -/
def inFlightMachine : Machine InFlightRequest InFlightOp InFlightEvent Blocked
  | s, .registerRequest pFrame => .ok (s.registerRequest pFrame, [])
  | s, .onPipelineFrame frame nodeId message =>
    match s.registered[frame]? with
    | none => .error .blocked
    | some pFrame => .ok ({ s.onPipelineFrame pFrame.getFrameNo nodeId message with
        delivered := s.delivered ++ [(frame, nodeId, message)] }, [])
  | s, .wait caller call =>
    match s.waiting.find? caller with
    | some _ => .error .blocked
    | none => .ok ({ s with
        waiting := s.waiting.add caller (InFlightRequest.waitPoint call) }, [])
  | s, .check caller => s.check caller

/-! ### The lists -/

inductive ListKey
  | request
  | nodeMeta (id : NodeId)
  | nodeImage (id : NodeId)
  deriving DecidableEq, Repr

namespace ListKey

def message : ListKey → Option NodeId × ℕ
  | request => (none, eMSG_FRAME_RELEASED)
  | nodeMeta id => (some id, eMSG_ALL_OUT_META_BUFFERS_RELEASED)
  | nodeImage id => (some id, eMSG_ALL_OUT_IMAGE_BUFFERS_RELEASED)

def concerns (pFrame : PipelineFrame) : ListKey → Bool
  | request => true
  | nodeMeta id | nodeImage id => pFrame.outputsAt id

def ofMessage : Option NodeId → ℕ → Option ListKey
  | none, message => if message = eMSG_FRAME_RELEASED then some request else none
  | some id, message =>
    if message = eMSG_ALL_OUT_META_BUFFERS_RELEASED then some (nodeMeta id)
    else if message = eMSG_ALL_OUT_IMAGE_BUFFERS_RELEASED then some (nodeImage id)
    else none

theorem ofMessage_eq_some_iff {nodeId : Option NodeId} {m : ℕ} {key : ListKey} :
    ofMessage nodeId m = some key ↔ key.message = (nodeId, m) := by
  cases nodeId with
  | none =>
    rw [ofMessage]
    split
    · rename_i hm
      cases key <;> simp [message, hm]
    · rename_i hm
      cases key <;> simp [message, Ne.symm hm]
  | some id =>
    rw [ofMessage]
    split
    · rename_i hm
      cases key <;> simp [message, hm, eMSG_ALL_OUT_META_BUFFERS_RELEASED,
        eMSG_ALL_OUT_IMAGE_BUFFERS_RELEASED, eq_comm]
    · rename_i hmeta
      split
      · rename_i hm
        cases key <;> simp [message, hm, eMSG_ALL_OUT_META_BUFFERS_RELEASED,
          eMSG_ALL_OUT_IMAGE_BUFFERS_RELEASED, eq_comm]
      · rename_i himage
        cases key <;> simp [message, Ne.symm hmeta, Ne.symm himage]

end ListKey

namespace RequestMap

variable {map : RequestMap} {n n' : NodeId} {frameNo : ℕ}

theorem valueFor_pushRequest (map : RequestMap) (n n' : NodeId) (frameNo : ℕ) :
    (map.pushRequest n frameNo).valueFor n' =
      map.valueFor n' ++ if n' = n then [frameNo] else [] := by
  rw [pushRequest, valueFor, valueFor]
  split
  · rename_i hnone
    rw [KeyedVector.find?_add]
    split
    · rename_i heq
      rw [heq, hnone]
      rfl
    · rw [List.append_nil]
  · rename_i l hsome
    rw [KeyedVector.find?_modify]
    split
    · rename_i heq
      rw [heq, hsome]
      rfl
    · rw [List.append_nil]

theorem valueFor_erase (map : RequestMap) (n n' : NodeId) (frameNo : ℕ) :
    RequestMap.valueFor (map.modify n fun list => list.erase frameNo) n' =
      if n' = n then (map.valueFor n').erase frameNo else map.valueFor n' := by
  rw [valueFor, valueFor, KeyedVector.find?_modify]
  split
  · cases map.find? n' <;> simp
  · rfl

end RequestMap

namespace InFlightRequest

variable {s s' : InFlightRequest} {key : ListKey} {pFrame : PipelineFrame} {op : InFlightOp}
  {ops : List InFlightOp} {events o : List InFlightEvent} {caller : Caller} {n : NodeId}

def requests (s : InFlightRequest) : ListKey → List ℕ
  | .request => s.mRequest
  | .nodeMeta id => s.mRequestMap_meta.valueFor id
  | .nodeImage id => s.mRequestMap_image.valueFor id

theorem requests_onPipelineFrame (s : InFlightRequest) (frameNo : ℕ) (nodeId : Option NodeId)
    (m : ℕ) (key : ListKey) : (s.onPipelineFrame frameNo nodeId m).requests key =
      if key.message = (nodeId, m) then (s.requests key).erase frameNo else s.requests key := by
  cases nodeId with
  | none =>
    simp only [← ListKey.ofMessage_eq_some_iff]
    rw [onPipelineFrame, ListKey.ofMessage]
    split
    · cases key <;> simp [requests]
    · simp
  | some id =>
    rw [onPipelineFrame]
    split
    · rename_i hnone
      rw [Bool.and_eq_true, Option.isNone_iff_eq_none, Option.isNone_iff_eq_none] at hnone
      split
      · rename_i hkey
        have hempty : s.requests key = [] := by
          cases key with
          | request => simp [ListKey.message] at hkey
          | nodeMeta id' | nodeImage id' =>
            obtain ⟨rfl, -⟩ : id' = id ∧ _ := by simpa [ListKey.message] using hkey
            simp [requests, RequestMap.valueFor, hnone.1, hnone.2]
        rw [hempty, List.erase_nil]
      · rfl
    · simp only [← ListKey.ofMessage_eq_some_iff]
      rw [ListKey.ofMessage]
      split
      · cases key <;> simp [requests, RequestMap.valueFor_erase, eq_comm]
      · split
        · cases key <;> simp [requests, RequestMap.valueFor_erase, eq_comm]
        · simp

/-- Does the loop of `registerRequest` list the frame? -/
def lists (pFrame : PipelineFrame) (vNode : List NodeId) : ListKey → Bool
  | .request => false
  | .nodeMeta id | .nodeImage id =>
    decide (id ∈ vNode.takeWhile fun n => (pFrame.queryIOStreamInfoSet n).isSome) &&
      ((pFrame.queryIOStreamInfoSet id).map INode.hasOutputs).getD false

theorem requests_registerNodes (pFrame : PipelineFrame) (s : InFlightRequest) {vNode : List NodeId}
    (hnodup : vNode.Nodup) (key : ListKey) : (registerNodes pFrame vNode s).requests key =
      s.requests key ++ if lists pFrame vNode key then [pFrame.getFrameNo] else [] := by
  induction vNode generalizing s with
  | nil => cases key <;> simp [registerNodes, lists]
  | cons node vNode ih =>
    rw [List.nodup_cons] at hnodup
    rw [registerNodes]
    split
    · rename_i hquery
      cases key <;> simp [lists, hquery]
    · rename_i out hquery
      rw [ih _ hnodup.2]
      have hnot : node ∉ vNode.takeWhile fun n => (pFrame.queryIOStreamInfoSet n).isSome :=
        fun hmem => hnodup.1 ((List.takeWhile_sublist _).mem hmem)
      cases key with
      | request =>
        split <;> simp [lists, requests]
      | nodeMeta id | nodeImage id =>
        by_cases hid : id = node
        · subst hid
          split <;> rename_i hout <;>
            simp [lists, requests, RequestMap.valueFor_pushRequest, hquery, hout, hnot]
        · split <;>
            simp [lists, requests, RequestMap.valueFor_pushRequest, hquery, hid]

/-! ### The keys -/

theorem mem_keys_pushRequest (map : RequestMap) (n n' : NodeId) (frameNo : ℕ) :
    n' ∈ (map.pushRequest n frameNo).keys ↔ n' = n ∨ n' ∈ map.keys := by
  rw [RequestMap.pushRequest]
  split
  · exact KeyedVector.mem_keys_add
  · rename_i hsome
    rw [KeyedVector.keys_modify]
    refine ⟨.inr, ?_⟩
    rintro (rfl | hmem)
    · exact KeyedVector.mem_keys_of_find? hsome
    · exact hmem

def SameNodes (s : InFlightRequest) : Prop :=
  ∀ n, n ∈ s.mRequestMap_meta.keys ↔ n ∈ s.mRequestMap_image.keys

theorem sameNodes_registerNodes (hs : s.SameNodes) (vNode : List NodeId) :
    (registerNodes pFrame vNode s).SameNodes := by
  induction vNode generalizing s with
  | nil => exact hs
  | cons node vNode ih =>
    rw [registerNodes]
    split
    · exact hs
    · refine ih ?_
      split
      · intro n
        rw [mem_keys_pushRequest, mem_keys_pushRequest, hs n]
      · exact hs

theorem sameNodes_onPipelineFrame (hs : s.SameNodes) (frameNo : ℕ) (nodeId : Option NodeId)
    (m : ℕ) : (s.onPipelineFrame frameNo nodeId m).SameNodes := by
  intro n
  cases nodeId with
  | none =>
    rw [onPipelineFrame]
    split <;> exact hs n
  | some id =>
    rw [onPipelineFrame]
    split
    · exact hs n
    · split
      · rw [KeyedVector.keys_modify]
        exact hs n
      · split
        · rw [KeyedVector.keys_modify]
          exact hs n
        · exact hs n

/-! ### The history -/

/-- Is the frame of this index to be listed, and has not taken itself off the list? -/
def awaited (s : InFlightRequest) (key : ListKey) (x : PipelineFrame × ℕ) : Bool :=
  key.concerns x.1 && decide ((x.2, key.message) ∉ s.delivered)

/-- **The frames in flight** for a list, by the history: those that are to be listed and whose
message has not arrived. -/
def inFlight (s : InFlightRequest) (key : ListKey) : List ℕ :=
  (s.registered.zipIdx.filter (s.awaited key)).map (·.1.getFrameNo)

/-- **Bookkeeping**: the lists hold exactly the frames in flight, and the two maps list the same
nodes, so that none is edited that the other one lacks. -/
structure Bookkeeping (s : InFlightRequest) : Prop where
  requests : ∀ key, (s.requests key).Perm (s.inFlight key)
  sameNodes : s.SameNodes

def Drained (s : InFlightRequest) : WaitCall → Prop
  | .drained => s.requests .request = []
  | .nodeDrained id => s.requests (.nodeMeta id) = [] ∧ s.requests (.nodeImage id) = []
  | .nodeMetaDrained id => s.requests (.nodeMeta id) = []
  | .nodeImageDrained id => s.requests (.nodeImage id) = []

def Once (s : InFlightRequest) : InFlightOp → Prop
  | .onPipelineFrame frame nodeId message => (frame, nodeId, message) ∉ s.delivered
  | _ => True

/-- Is a caller of `waitUntilNodeDrained` waiting for the images of the node? -/
def Between (s : InFlightRequest) (n : NodeId) : Prop :=
  ∃ e ∈ s.waiting.entries, e.2 = .nodeImage n true

/-- **The condition**: a frame that is registered has an IO set for every node up to the last
one where it has outputs; a message about a node where its frame has no outputs is not taken for
that of another frame of the same number; and while a caller is between the two waits of
`waitUntilNodeDrained`, the image message of a frame does not overtake its metadata message. -/
def Guarded (s : InFlightRequest) : InFlightOp → Prop
  | .registerRequest pFrame => ∀ n ∈ pFrame.getToposort,
      pFrame.outputsAt n = true → n ∈ pFrame.queried
  | .onPipelineFrame frame nodeId message => ∀ pFrame ∈ s.registered[frame]?,
      (∀ key ∈ ListKey.ofMessage nodeId message,
        key.concerns pFrame = true ∨ pFrame.getFrameNo ∉ s.requests key) ∧
      ∀ n ∈ nodeId, message = eMSG_ALL_OUT_IMAGE_BUFFERS_RELEASED → s.Between n →
        pFrame.getFrameNo ∉ s.requests (.nodeMeta n)
  | _ => True

instance (s : InFlightRequest) (n : NodeId) : Decidable (s.Between n) :=
  inferInstanceAs (Decidable (∃ e ∈ s.waiting.entries, e.2 = .nodeImage n true))

instance (s : InFlightRequest) : (op : InFlightOp) → Decidable (s.Once op)
  | .onPipelineFrame frame nodeId message =>
    inferInstanceAs (Decidable ((frame, nodeId, message) ∉ s.delivered))
  | .registerRequest _ | .wait _ _ | .check _ => isTrue trivial

instance (s : InFlightRequest) : (op : InFlightOp) → Decidable (s.Guarded op)
  | .registerRequest pFrame =>
    inferInstanceAs (Decidable (∀ n ∈ pFrame.getToposort, _ → n ∈ pFrame.queried))
  | .onPipelineFrame frame nodeId message =>
    inferInstanceAs (Decidable (∀ pFrame ∈ s.registered[frame]?,
      (∀ key ∈ ListKey.ofMessage nodeId message, _ ∨ pFrame.getFrameNo ∉ s.requests key) ∧
      ∀ n ∈ nodeId, _ → s.Between n → pFrame.getFrameNo ∉ s.requests (.nodeMeta n)))
  | .wait _ _ | .check _ => isTrue trivial

/-! ### The invariant -/

structure InFlightInvariant (s : InFlightRequest) : Prop where
  count : ∀ key no, (s.requests key).count no =
    s.registered.zipIdx.countP fun x => s.awaited key x && (x.1.getFrameNo == no)
  sameNodes : s.SameNodes
  registered : ∀ d ∈ s.delivered, d.1 < s.registered.length
  /-- While a caller waits for the images of a node, no frame is listed there for its metadata
  alone. -/
  between : ∀ n, s.Between n → ∀ no,
    (s.requests (.nodeMeta n)).count no ≤ (s.requests (.nodeImage n)).count no

theorem InFlightInvariant.bookkeeping (h : s.InFlightInvariant) : s.Bookkeeping := by
  refine ⟨fun key => List.perm_iff_count.mpr fun no => ?_, h.sameNodes⟩
  rw [h.count, inFlight, List.count_eq_countP, List.countP_map, List.countP_filter]
  exact List.countP_congr fun x _ => by simp [and_comm]

theorem InFlightInvariant.init : ({} : InFlightRequest).InFlightInvariant := by
  refine ⟨fun key no => ?_, fun n => Iff.rfl, nofun, ?_⟩
  · cases key <;> rfl
  · rintro n ⟨e, he, -⟩
    cases he

theorem requests_registerRequest (s : InFlightRequest)
    (hguard : ∀ n ∈ pFrame.getToposort, pFrame.outputsAt n = true → n ∈ pFrame.queried)
    (key : ListKey) : (s.registerRequest pFrame).requests key =
      s.requests key ++ if key.concerns pFrame then [pFrame.getFrameNo] else [] := by
  have hnodes := requests_registerNodes pFrame
    { s with mRequest := s.mRequest ++ [pFrame.getFrameNo] } pFrame.nodup key
  refine Eq.trans ?_ (hnodes.trans ?_)
  · cases key <;> rfl
  · have houtputs : ∀ id, (decide (id ∈ pFrame.queried) &&
        ((pFrame.queryIOStreamInfoSet id).map INode.hasOutputs).getD false) =
          pFrame.outputsAt id := by
      intro id
      rw [Bool.eq_iff_iff]
      constructor
      · intro hlisted
        rw [Bool.and_eq_true, decide_eq_true_eq] at hlisted
        rw [PipelineFrame.outputsAt, Bool.and_eq_true, decide_eq_true_eq]
        exact ⟨(List.takeWhile_sublist _).mem hlisted.1, hlisted.2⟩
      · intro hout
        have hout' := hout
        rw [PipelineFrame.outputsAt, Bool.and_eq_true, decide_eq_true_eq] at hout'
        rw [Bool.and_eq_true, decide_eq_true_eq]
        exact ⟨hguard id hout'.1 hout, hout'.2⟩
    cases key with
    | request => simp [requests, lists, ListKey.concerns]
    | nodeMeta id | nodeImage id =>
      rw [ListKey.concerns, ← houtputs id]
      rfl

/-- Listing a frame touches neither the callers that wait nor the messages that have arrived. -/
theorem registerNodes_rest (pFrame : PipelineFrame) (vNode : List NodeId)
    (s : InFlightRequest) : (registerNodes pFrame vNode s).waiting = s.waiting ∧
      (registerNodes pFrame vNode s).delivered = s.delivered := by
  induction vNode generalizing s with
  | nil => exact ⟨rfl, rfl⟩
  | cons node vNode ih =>
    rw [registerNodes]
    split
    · exact ⟨rfl, rfl⟩
    · obtain ⟨hwaiting, hdelivered⟩ := ih _
      rw [hwaiting, hdelivered]
      split <;> exact ⟨rfl, rfl⟩

theorem onPipelineFrame_rest (s : InFlightRequest) (frameNo : ℕ) (nodeId : Option NodeId)
    (m : ℕ) : (s.onPipelineFrame frameNo nodeId m).waiting = s.waiting ∧
      (s.onPipelineFrame frameNo nodeId m).registered = s.registered := by
  cases nodeId with
  | none =>
    rw [onPipelineFrame]
    split <;> exact ⟨rfl, rfl⟩
  | some id =>
    rw [onPipelineFrame]
    split
    · exact ⟨rfl, rfl⟩
    · split
      · exact ⟨rfl, rfl⟩
      · split <;> exact ⟨rfl, rfl⟩

theorem InFlightInvariant.registerRequest (h : s.InFlightInvariant)
    (hguard : s.Guarded (.registerRequest pFrame)) :
    (s.registerRequest pFrame).InFlightInvariant := by
  obtain ⟨hwaiting, hdelivered⟩ := registerNodes_rest pFrame pFrame.getToposort
    { s with mRequest := s.mRequest ++ [pFrame.getFrameNo] }
  have hrequests := requests_registerRequest s hguard
  have hnew : ∀ key : ListKey, (s.registered.length, key.message) ∉ s.delivered :=
    fun key hmem => Nat.lt_irrefl _ (h.registered _ hmem)
  refine ⟨fun key no => ?_, ?_, ?_, ?_⟩
  · have hawaited : (s.registerRequest pFrame).awaited key = s.awaited key := by
      funext x
      rw [awaited, awaited, InFlightRequest.registerRequest, hdelivered]
    rw [hrequests, List.count_append, h.count, hawaited, InFlightRequest.registerRequest,
      List.zipIdx_append, List.countP_append]
    simp only [List.zipIdx_singleton, List.countP_singleton, awaited, hnew, Nat.zero_add,
      not_false_eq_true, decide_true, Bool.and_true]
    cases key.concerns pFrame <;> simp [List.count_singleton]
  · exact sameNodes_registerNodes
      (s := { s with mRequest := s.mRequest ++ [pFrame.getFrameNo] }) h.sameNodes _
  · intro d hd
    rw [InFlightRequest.registerRequest, hdelivered] at hd
    have hlt := h.registered d hd
    rw [InFlightRequest.registerRequest, List.length_append]
    omega
  · intro n hbetween no
    rw [Between, InFlightRequest.registerRequest, hwaiting] at hbetween
    have hle := h.between n hbetween no
    rw [hrequests, hrequests, List.count_append, List.count_append]
    exact Nat.add_le_add_right hle _

theorem InFlightInvariant.count_onPipelineFrame (h : s.InFlightInvariant) {frame : ℕ}
    {nodeId : Option NodeId} {m : ℕ} (honce : (frame, nodeId, m) ∉ s.delivered)
    (hframe : s.registered[frame]? = some pFrame)
    (hkey : key.message = (nodeId, m) →
      key.concerns pFrame = true ∨ pFrame.getFrameNo ∉ s.requests key) (no : ℕ) :
    List.count no (if key.message = (nodeId, m) then (s.requests key).erase pFrame.getFrameNo
      else s.requests key) =
      s.registered.zipIdx.countP fun x => s.awaited key x &&
        decide ((x.2, key.message) ≠ (frame, nodeId, m)) && (x.1.getFrameNo == no) := by
  have hother : ∀ x ∈ s.registered.zipIdx, x ≠ (pFrame, frame) ∨ key.message ≠ (nodeId, m) →
      (x.2, key.message) ≠ (frame, nodeId, m) := by
    rintro ⟨f, i⟩ hx hne heq
    obtain ⟨rfl, hmessage⟩ := Prod.mk.inj heq
    have hf := List.mem_zipIdx_iff_getElem?.mp hx
    rw [hframe, Option.some_inj] at hf
    exact hne.elim (fun hne => hne (by rw [hf])) fun hne => hne hmessage
  have hcount := h.count key no
  by_cases hmessage : key.message = (nodeId, m)
  · rw [if_pos hmessage]
    by_cases hhit : key.concerns pFrame = true ∧ pFrame.getFrameNo = no
    · obtain ⟨hconcerns, rfl⟩ := hhit
      have hmem : (pFrame, frame) ∈ s.registered.zipIdx :=
        List.mem_zipIdx_iff_getElem?.mpr hframe
      have hnodup : s.registered.zipIdx.Nodup := by
        refine List.Nodup.of_map Prod.snd ?_
        rw [List.zipIdx_map_snd]
        exact List.nodup_range' _
      have hlower := countP_eq_countP_add_one
        (p := fun x => s.awaited key x && (x.1.getFrameNo == pFrame.getFrameNo))
        (q := fun x => s.awaited key x && decide ((x.2, key.message) ≠ (frame, nodeId, m)) &&
          (x.1.getFrameNo == pFrame.getFrameNo)) hnodup hmem
        (by simp [awaited, hconcerns, hmessage, honce]) (by simp [hmessage])
        fun x hx hne => by simp [hother x hx (.inl hne)]
      rw [List.count_erase_self]
      omega
    · have hsame : List.count no ((s.requests key).erase pFrame.getFrameNo) =
          List.count no (s.requests key) := by
        by_cases hno : pFrame.getFrameNo = no
        · have hconcerns := (hkey hmessage).resolve_left fun hc => hhit ⟨hc, hno⟩
          rw [List.erase_of_not_mem hconcerns]
        · rw [List.count_erase_of_ne (Ne.symm hno)]
      rw [hsame, hcount]
      refine List.countP_congr fun x hx => ?_
      by_cases hx' : x = (pFrame, frame)
      · subst hx'
        simp only [awaited, Bool.and_eq_true, beq_iff_eq]
        tauto
      · simp [hother x hx (.inl hx')]
  · rw [if_neg hmessage, hcount]
    refine List.countP_congr fun x hx => ?_
    simp [hother x hx (.inr hmessage)]

theorem InFlightInvariant.onPipelineFrame (h : s.InFlightInvariant) {frame : ℕ}
    {nodeId : Option NodeId} {m : ℕ} (honce : s.Once (.onPipelineFrame frame nodeId m))
    (hguard : s.Guarded (.onPipelineFrame frame nodeId m))
    (hframe : s.registered[frame]? = some pFrame) :
    { s.onPipelineFrame pFrame.getFrameNo nodeId m with
      delivered := s.delivered ++ [(frame, nodeId, m)] }.InFlightInvariant := by
  obtain ⟨hwaiting, hregistered⟩ := s.onPipelineFrame_rest pFrame.getFrameNo nodeId m
  have hrequests : ∀ key, requests { s.onPipelineFrame pFrame.getFrameNo nodeId m with
      delivered := s.delivered ++ [(frame, nodeId, m)] } key =
        if key.message = (nodeId, m) then (s.requests key).erase pFrame.getFrameNo
        else s.requests key := by
    intro key
    rw [← requests_onPipelineFrame]
    cases key <;> rfl
  have hawaited : ∀ key x, awaited { s.onPipelineFrame pFrame.getFrameNo nodeId m with
      delivered := s.delivered ++ [(frame, nodeId, m)] } key x =
        (s.awaited key x && decide ((x.2, key.message) ≠ (frame, nodeId, m))) := by
    intro key x
    simp [awaited, Bool.and_assoc]
  obtain ⟨hkey, himage⟩ := hguard pFrame hframe
  refine ⟨fun key no => ?_, sameNodes_onPipelineFrame h.sameNodes _ _ _, fun d hd => ?_,
    fun n hbetween no => ?_⟩
  · rw [hrequests, hregistered]
    simp only [hawaited]
    exact h.count_onPipelineFrame honce hframe
      (fun hmessage => hkey key (ListKey.ofMessage_eq_some_iff.mpr hmessage)) no
  · rw [List.mem_append, List.mem_singleton] at hd
    rw [hregistered]
    obtain hd | rfl := hd
    · exact h.registered d hd
    · exact (List.getElem?_eq_some_iff.mp hframe).1
  · rw [Between, hwaiting] at hbetween
    have hle := h.between n hbetween no
    rw [hrequests, hrequests]
    by_cases hmessage : (ListKey.nodeImage n).message = (nodeId, m)
    · obtain ⟨rfl, rfl⟩ := Prod.mk.inj hmessage
      have hnot := himage n rfl rfl hbetween
      have hmeta : (ListKey.nodeMeta n).message ≠
          (some n, eMSG_ALL_OUT_IMAGE_BUFFERS_RELEASED) := by
        simp [ListKey.message, eMSG_ALL_OUT_META_BUFFERS_RELEASED,
          eMSG_ALL_OUT_IMAGE_BUFFERS_RELEASED]
      rw [if_neg hmeta, if_pos hmessage]
      by_cases hno : no = pFrame.getFrameNo
      · rw [hno, List.count_eq_zero_of_not_mem hnot]
        exact Nat.zero_le _
      · rwa [List.count_erase_of_ne hno]
    · rw [if_neg hmessage]
      refine le_trans ?_ hle
      split
      · exact List.erase_sublist.count_le _
      · exact le_rfl

/-- The lists, the frames and the messages are left alone; callers may have begun to wait or
have come to their end. -/
theorem InFlightInvariant.congr (h : s.InFlightInvariant) {waiting : KeyedVector Caller WaitPoint}
    (hbetween : ∀ n, (∃ e ∈ waiting.entries, e.2 = .nodeImage n true) → s.Between n ∨
      s.requests (.nodeMeta n) = []) : { s with waiting }.InFlightInvariant := by
  refine ⟨h.count, h.sameNodes, h.registered, fun n hn no => ?_⟩
  obtain hn | hn := hbetween n hn
  · exact h.between n hn no
  · refine le_trans (Eq.le ?_) (Nat.zero_le _)
    exact congrArg (List.count no) hn

theorem exists_entries_iff {waiting : KeyedVector Caller WaitPoint} {point : WaitPoint} :
    (∃ e ∈ waiting.entries, e.2 = point) ↔ ∃ caller, waiting.find? caller = some point := by
  constructor
  · rintro ⟨⟨caller, _⟩, he, rfl⟩
    exact ⟨caller, KeyedVector.find?_eq_some_iff.mpr he⟩
  · rintro ⟨caller, hfind⟩
    exact ⟨_, KeyedVector.find?_eq_some_iff.mp hfind, rfl⟩

inductive Checked (s : InFlightRequest) (caller : Caller) :
    InFlightRequest → List InFlightEvent → Prop
  | goOn : Checked s caller s []
  | advance {id : NodeId} (hmeta : s.requests (.nodeMeta id) = []) :
      Checked s caller { s with waiting := s.waiting.add caller (.nodeImage id true) } []
  | done (call : WaitCall) (hdone : s.Drained call) :
      Checked s caller { s with waiting := s.waiting.remove caller } [.returned caller call]
  | doneImage {id : NodeId} (hbetween : s.Between id) (himage : s.requests (.nodeImage id) = []) :
      Checked s caller { s with waiting := s.waiting.remove caller }
        [.returned caller (.nodeDrained id)]

theorem checked_of_check (h : s.check caller = .ok (s', o)) : s.Checked caller s' o := by
  rw [check] at h
  dsimp only at h
  split at h
  · cases h
  · split at h
    · rename_i hempty
      cases h
      exact .done .drained (List.isEmpty_iff.mp hempty)
    · cases h
      exact .goOn
  · rename_i id hfind
    split at h
    · rename_i hempty
      cases h
      exact .done (.nodeMetaDrained id) (List.isEmpty_iff.mp hempty)
    · cases h
      exact .goOn
  · split at h
    · rename_i hempty
      cases h
      exact .advance (List.isEmpty_iff.mp hempty)
    · cases h
      exact .goOn
  · rename_i id both hfind
    split at h
    · rename_i hempty
      have himage : s.requests (.nodeImage id) = [] := List.isEmpty_iff.mp hempty
      cases both with
      | false =>
        cases h
        exact .done (.nodeImageDrained id) himage
      | true =>
        cases h
        exact .doneImage (exists_entries_iff.mpr ⟨caller, hfind⟩) himage
    · cases h
      exact .goOn

theorem InFlightInvariant.step (h : s.InFlightInvariant) (honce : s.Once op)
    (hguard : s.Guarded op) (hstep : inFlightMachine s op = .ok (s', o)) :
    s'.InFlightInvariant := by
  cases op with
  | registerRequest pFrame =>
    cases hstep
    exact h.registerRequest hguard
  | onPipelineFrame frame nodeId m =>
    rw [inFlightMachine] at hstep
    split at hstep
    · cases hstep
    · rename_i hframe
      cases hstep
      exact h.onPipelineFrame honce hguard hframe
  | wait caller call =>
    rw [inFlightMachine] at hstep
    split at hstep
    · cases hstep
    · cases hstep
      refine h.congr fun n hn => .inl (exists_entries_iff.mpr ?_)
      obtain ⟨c, hfind⟩ := exists_entries_iff.mp hn
      rw [KeyedVector.find?_add] at hfind
      split at hfind
      · cases call <;> cases hfind
      · exact ⟨c, hfind⟩
  | check caller =>
    cases checked_of_check hstep with
    | goOn => exact h
    | @advance id hmeta =>
      refine h.congr fun n hn => ?_
      obtain ⟨c, hfind⟩ := exists_entries_iff.mp hn
      rw [KeyedVector.find?_add] at hfind
      split at hfind
      · cases hfind
        exact .inr hmeta
      · exact .inl (exists_entries_iff.mpr ⟨c, hfind⟩)
    | done | doneImage =>
      refine h.congr fun n hn => .inl (exists_entries_iff.mpr ?_)
      obtain ⟨c, hfind⟩ := exists_entries_iff.mp hn
      rw [KeyedVector.find?_remove] at hfind
      split at hfind
      · cases hfind
      · exact ⟨c, hfind⟩

theorem InFlightInvariant.drained (h : s.InFlightInvariant) {call : WaitCall}
    (hcheck : s.check caller = .ok (s', o)) (ho : .returned caller call ∈ o) :
    s.Drained call := by
  cases checked_of_check hcheck with
  | goOn | advance => cases ho
  | done call' hdone =>
    obtain rfl : call = call' := by simpa using ho
    exact hdone
  | @doneImage id hbetween himage =>
    obtain rfl : call = .nodeDrained id := by simpa using ho
    refine ⟨List.eq_nil_iff_forall_not_mem.mpr fun no hno => ?_, himage⟩
    have hpos := List.count_pos_iff.mpr hno
    have hle := h.between id hbetween no
    rw [himage, List.count_nil] at hle
    omega

/-- **Requests in flight**, in every run in which messages arrive once and the condition is met:
the lists hold exactly the frames in flight, and a wait comes to its end only when its lists are
empty. -/
theorem inFlight_spec (h : inFlightMachine.RunsMeeting (fun _ s op => s.Once op ∧ s.Guarded op)
    {} ops s events) : s.Bookkeeping ∧ ∀ caller call s' o,
      s.check caller = .ok (s', o) → .returned caller call ∈ o → s.Drained call := by
  have hinv : s.InFlightInvariant := by
    refine h.invariant (I := fun _ s _ => InFlightInvariant s) .init ?_
    intro _ _ _ _ _ _ hinv hmeets hstep
    exact hinv.step hmeets.1 hmeets.2 hstep
  exact ⟨hinv.bookkeeping, fun caller call s' o => hinv.drained⟩

def oneNode (frameNo : ℕ) : PipelineFrame where
  getFrameNo := frameNo
  getToposort := [7]
  nodup := List.nodup_singleton 7
  queryIOStreamInfoSet n :=
    if n = 7 then some { iImage := [], oImage := [10], iMeta := [], oMeta := [20] } else none

/-- A frame in flight, and a caller that waits until its node has done it. -/
def drainedInOrder : List InFlightOp :=
  [.registerRequest (oneNode 1), .wait 1 (.nodeDrained 7), .check 1,
    .onPipelineFrame 0 (some 7) eMSG_ALL_OUT_META_BUFFERS_RELEASED, .check 1,
    .onPipelineFrame 0 (some 7) eMSG_ALL_OUT_IMAGE_BUFFERS_RELEASED, .check 1]

/-- The caller of `drainedInOrder` comes to its end, and the frame is in flight until it is
released. -/
theorem inFlight_spec_drainedInOrder : ∃ s events,
    inFlightMachine.RunsMeeting (fun _ s op => s.Once op ∧ s.Guarded op) {} drainedInOrder
      s events ∧ events = [.returned 1 (.nodeDrained 7)] ∧ s.mRequest = [1] ∧ s.Bookkeeping := by
  have hobserve : inFlightMachine.observe {} drainedInOrder mRequest =
      some ([1], [.returned 1 (.nodeDrained 7)]) := by decide
  obtain ⟨s, hrun, hs⟩ := Machine.exists_run_of_observe hobserve
  have hmeeting := hrun.meeting (C := fun s op => s.Once op ∧ s.Guarded op) (by decide)
  exact ⟨s, _, hmeeting, rfl, hs, (inFlight_spec hmeeting).1⟩

/-- A caller finds no metadata in flight at a node; then a frame is registered, and its images
arrive before its metadata. -/
def registeredBetween : List InFlightOp :=
  [.wait 1 (.nodeDrained 7), .check 1, .registerRequest (oneNode 1),
    .onPipelineFrame 0 (some 7) eMSG_ALL_OUT_IMAGE_BUFFERS_RELEASED]

/-- The wait for the node ends while the node still has the metadata of the frame to do. -/
theorem registeredBetween_not_drained : ∃ s events s' o,
    inFlightMachine.RunsMeeting (fun _ => Once) {} registeredBetween s events ∧
      s.check 1 = .ok (s', o) ∧ .returned 1 (.nodeDrained 7) ∈ o ∧
      ¬ s.Drained (.nodeDrained 7) := by
  have hobserve : ((inFlightMachine.observe {} registeredBetween fun s =>
      (s.waiting.find? 1, s.requests (.nodeMeta 7), s.requests (.nodeImage 7))).map (·.1)) =
        some (some (.nodeImage 7 true), [1], []) := by decide
  obtain ⟨⟨view, events⟩, hview, rfl⟩ := Option.map_eq_some_iff.mp hobserve
  obtain ⟨s, hrun, hs⟩ := Machine.exists_run_of_observe hview
  simp only [Prod.mk.injEq] at hs
  obtain ⟨hwaiting, hmeta, himage⟩ := hs
  have hempty : (s.mRequestMap_image.valueFor 7).isEmpty = true := List.isEmpty_iff.mpr himage
  refine ⟨s, events, { s with waiting := s.waiting.remove 1 }, _,
    hrun.meeting (C := Once) (by decide), ?_, List.mem_singleton_self _, ?_⟩
  · rw [check, hwaiting]
    dsimp only
    rw [if_pos hempty]
    rfl
  · rintro ⟨hdone, -⟩
    rw [hmeta] at hdone
    cases hdone

end InFlightRequest

end MtkHardware.Pipeline
