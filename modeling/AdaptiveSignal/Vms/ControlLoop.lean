import AdaptiveSignal.Configuration.CarouselUpdate
import AdaptiveSignal.Foundation.CString
import AdaptiveSignal.Foundation.PrioritySlot
import AdaptiveSignal.Signal.Middleware

/-! # The control loop of the message signs

Twice a second at most the loop sends the programs of all signs in one line of
text, and then reads what the signs have answered. Which programs these are is
decided by the application that holds the signs, or by the carousel.
-/

namespace AdaptiveSignal.Vms

open Foundation AdaptiveSignal.Configuration
open Signal (TrafficSignalStatus)

abbrev carouselNum : UInt8 := 255

abbrev evspId : UInt8 := 1

abbrev vmsPacketTxLenMax : ℕ := 40

abbrev vmsPacketRxLenMax : ℕ := 100

abbrev vmsErrorThreshold : ℕ := 1000

/-- The variables of the loop. `beyond` is what lies behind `vms_packet_rx`, where
a string without an end runs on, and an index that is no sign stands for memory
beside `vms_respose_cnt`. -/
structure ControlLoop where
  requestPriority : UInt8
  appId : UInt8
  evspProg : ℕ → UInt8
  carousel : VmsState
  sequenceNumber : ℕ
  currentStep : ℕ → Bool
  vmsPacketRx : List UInt8
  beyond : List UInt8
  vmsResposeCnt : ℤ → UInt8
  readCnt : ℕ
  vmsError : Bool

/-- What a pass of the loop finds: the status of the signal, and what `read`
returns if it returns something. -/
structure LoopInput where
  status : TrafficSignalStatus
  read : Option (List UInt8)

/-- A pass of the loop, or what other threads do in between. -/
inductive LoopEvent
  | requestStart (id priority : UInt8)
  | requestEnd (id : UInt8)
  | setEvspProg (prog : ℕ → UInt8)
  | carouselUpdate (opened : Bool) (request : CarouselRequest)
  | setVmsError (error : Bool)
  | pass (input : LoopInput)

/-- The number of signs in a line of text. -/
def signs (status : TrafficSignalStatus) : ℕ := min rtmMax status.signalCount.toNat

/-- Bit `i` of `rtm_phase[j]`: the signal of direction `j` shows a green in phase `i`. -/
def rtmPhaseBit (status : TrafficSignalStatus) (j i : ℕ) : Bool :=
  i < status.subPhaseCount.toNat && i < rtmMax && j < status.signalCount.toNat &&
    0 < status.phaseorderPlan i j &&& 0b00111100

/-- `rtm_phase[j]` as `phase_rtm_connect` leaves it. -/
def rtmPhase (status : TrafficSignalStatus) (j : ℕ) : UInt8 :=
  (List.range rtmMax).foldl
    (fun bits i => if rtmPhaseBit status j i then bits ||| 1 <<< UInt8.ofNat i else bits) 0

/-- The direction whose programs a sign is sent. -/
def partner (i : ℕ) : ℕ :=
  if i = 0 then 1 else if i = 1 then 0 else if i = 2 then 3 else 2

/-- The signs a text answers for: the character before each line break is the
number of a sign, counted from 1. -/
def answersIn (text : List UInt8) : List ℤ :=
  (List.range (text.length - 1)).filterMap fun i =>
    if text[i + 1]? = some 10 then text[i]?.map fun c => c.toInt8.toInt - 49 else none

namespace ControlLoop

def vmsRequestStart (s : ControlLoop) (id priority : UInt8) : ControlLoop :=
  if priority < s.requestPriority then { s with requestPriority := priority, appId := id } else s

def vmsRequestEnd (s : ControlLoop) (id : UInt8) : ControlLoop :=
  if s.appId = id then { s with requestPriority := carouselNum, appId := carouselNum } else s

/-- The number of the next line, never 0. -/
def nextSequence (s : ControlLoop) : ControlLoop :=
  let n := (s.sequenceNumber + 1) % 256
  { s with sequenceNumber := if n = 0 then n + 1 else n }

/-- The loop of the carousel that looks at the lights; a phase is a bit of a byte. -/
def lookAtLights (s : ControlLoop) (status : TrafficSignalStatus) : ControlLoop :=
  let currentPhase : UInt8 := UInt8.ofNat (2 ^ (status.subPhaseId.toNat - 1))
  { s with
    currentStep := fun i =>
      if i < signs status then
        decide (0 < rtmPhase status i &&& currentPhase) && status.stepId ≤ 3
      else s.currentStep i }

/-- An entry of a table of programs. -/
def program (table : Fin rtmMax → UInt8) (j : ℕ) : UInt8 :=
  if h : j < rtmMax then table ⟨j, h⟩ else 0

/-- The `switch (app_id)`: the programs that are appended to the text. -/
def programs (s : ControlLoop) (status : TrafficSignalStatus) : List UInt8 :=
  if s.appId = evspId then (List.range (signs status)).map s.evspProg
  else if s.appId = carouselNum then
    (List.range (signs status)).map fun i =>
      if s.currentStep (partner i) then program s.carousel.shownGreen (partner i)
      else program s.carousel.shownNotGreen (partner i)
  else []

/-- `vms_packet_tx`. -/
def packetText (sequenceNumber : ℕ) (programs : List UInt8) : List Char :=
  '(' :: decimal sequenceNumber ++ programs.flatMap (fun p => ',' :: decimal p.toNat) ++ ['\n']

/-- The loop as it is when the text of a pass is written. -/
def beforeWrite (s : ControlLoop) (status : TrafficSignalStatus) : ControlLoop :=
  let s := s.nextSequence
  if s.appId = carouselNum then s.lookAtLights status else s

/-- What a pass writes to the port. -/
def written (s : ControlLoop) (status : TrafficSignalStatus) : List Char :=
  let s := s.beforeWrite status
  packetText s.sequenceNumber (s.programs status)

/-- `memset` with the length of the other buffer, and `read`. -/
def receive (s : ControlLoop) (read : Option (List UInt8)) : ControlLoop :=
  let cleared := List.replicate vmsPacketTxLenMax 0 ++ s.vmsPacketRx.drop vmsPacketTxLenMax
  let front := (read.getD []).take vmsPacketRxLenMax
  { s with vmsPacketRx := front ++ cleared.drop front.length }

def answers (s : ControlLoop) : List ℤ :=
  answersIn (cString (s.vmsPacketRx ++ s.beyond))

def countAnswers (s : ControlLoop) : ControlLoop :=
  { s with vmsResposeCnt := fun i => s.vmsResposeCnt i + UInt8.ofNat (s.answers.count i) }

/-- The check after every thousand passes. -/
def check (s : ControlLoop) (status : TrafficSignalStatus) : ControlLoop :=
  if s.readCnt = vmsErrorThreshold then
    { s with
      vmsError := (List.range (signs status)).any fun i => s.vmsResposeCnt i = 0
      readCnt := 0
      vmsResposeCnt := fun i => if 0 ≤ i ∧ i < rtmMax then 0 else s.vmsResposeCnt i }
  else s

/-- `control_loop`. -/
def pass (s : ControlLoop) (input : LoopInput) : ControlLoop :=
  let s := (s.beforeWrite input.status).receive input.read
  ({ s with readCnt := s.readCnt + 1 }.countAnswers).check input.status

def step (s : ControlLoop) : LoopEvent → ControlLoop
  | .requestStart id priority => s.vmsRequestStart id priority
  | .requestEnd id => s.vmsRequestEnd id
  | .setEvspProg prog => { s with evspProg := prog }
  | .carouselUpdate opened request =>
      { s with carousel := (carouselUpdate opened request s.carousel).2 }
  | .setVmsError error => { s with vmsError := error }
  | .pass input => s.pass input

/-- The lines of text that an event sends. -/
def sent (s : ControlLoop) : LoopEvent → List (List Char)
  | .pass input => [s.written input.status]
  | _ => []

end ControlLoop

end AdaptiveSignal.Vms
