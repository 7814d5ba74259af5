import KcpTest.Message.Text

/-!
Contract: the message queue and the singleton in front of it.

Owns: `MessageQueue`, the statics of `dataprocess.h`, `getInstance`,
`sendMessage`, and the threads that call them, where each critical section under
the mutex is one step.

A waiting thread may look again at any time, as `condition.wait` allows. Calling
through a null pointer is undefined and models as no step.
-/

set_option autoImplicit false

namespace KcpTest.Queue

open KcpTest

structure DataMessage where
  id : Int32
  data : Message.Bytes
  deriving DecidableEq

/-- An object of the class. The queue itself is static and shared. -/
structure MessageQueue where
  stopped : Bool := false
  deriving DecidableEq

/-- What `receive` does once it holds the mutex. -/
inductive Reception where
  | wait
  | returns (message : Option DataMessage) (queue : List DataMessage)

namespace MessageQueue

def receive (this : MessageQueue) (queue : List DataMessage) : Reception :=
  if !(!queue.isEmpty || this.stopped) then .wait
  else if this.stopped && queue.isEmpty then .returns none queue
  else .returns queue.head? queue.tail

def tryReceive (queue : List DataMessage) : Option DataMessage × List DataMessage :=
  if queue.isEmpty then (none, queue) else (queue.head?, queue.tail)

def stop (this : MessageQueue) : MessageQueue := { this with stopped := true }

end MessageQueue

/-! ### Statics -/

/-- The static queue and the two static pointers. `dataProcess` is the object
behind `instance`, as a `MessageQueue`. -/
structure Statics where
  queue : List DataMessage
  dataProcess : Option MessageQueue
  messageQueue : Option MessageQueue
  deriving DecidableEq

def Statics.initial : Statics where
  queue := []
  dataProcess := none
  messageQueue := none

/-- `DataProcess::getInstance` -/
def Statics.getInstance (statics : Statics) : Statics :=
  { statics with
    dataProcess := some (statics.dataProcess.getD {})
    messageQueue := some (statics.messageQueue.getD {}) }

/-! ### Threads -/

/-- Where a thread is: outside, between `send` and `stop`, between the section
of `stop` and its notification, or waiting in `receive`. -/
inductive Place where
  | outside
  | sent
  | stopping
  | waiting (notified : Bool)
  deriving DecidableEq

def Place.notify : Place → Place
  | .waiting _ => .waiting true
  | place => place

/-- What a thread is to do next. -/
inductive Move where
  | getInstance
  | sendMessage (index : Int32) (data : Message.Bytes)
  | receive
  | tryReceive
  | proceed

/-- What a step did. -/
inductive Event where
  | pushed (message : DataMessage)
  | notPushed
  | received (result : Option DataMessage)
  | tried (result : Option DataMessage)
  deriving DecidableEq

def Event.handedOut : Event → Option DataMessage
  | .received result => result
  | .tried result => result
  | _ => none

def Event.push : Event → Option DataMessage
  | .pushed message => some message
  | _ => none

structure System (Thread : Type) where
  statics : Statics
  place : Thread → Place

variable {Thread : Type} [DecidableEq Thread]

/-- All threads are outside, and `getInstance` was called once. -/
def System.start : System Thread where
  statics := Statics.initial.getInstance
  place := fun _ => .outside

def System.goto (system : System Thread) (thread : Thread) (place : Place) : System Thread :=
  { system with place := fun other => if other = thread then place else system.place other }

/-- `condition.notify_all` -/
def System.notifyAll (system : System Thread) : System Thread :=
  { system with place := fun other => (system.place other).notify }

/-- The critical section of `messageQueue->send`, if the pointer is set. -/
def System.send (system : System Thread) (message : DataMessage) : System Thread × List Event :=
  match system.statics.messageQueue with
  | none => (system, [.notPushed])
  | some _ =>
      (({ system with
          statics := { system.statics with queue := system.statics.queue ++ [message] } } :
        System Thread).notifyAll, [.pushed message])

/-- The critical section of `messageQueue->stop`. -/
def System.stop (system : System Thread) (thread : Thread) : System Thread :=
  match system.statics.messageQueue with
  | none => system
  | some this =>
      ({ system with statics := { system.statics with messageQueue := some this.stop } } :
        System Thread).goto thread .stopping

/-- `receive` on the instance, from the mutex to its release. -/
def System.receive (system : System Thread) (thread : Thread) : System Thread × List Event :=
  match system.statics.dataProcess with
  | none => (system, [])
  | some this =>
      match this.receive system.statics.queue with
      | .wait => (system.goto thread (.waiting false), [])
      | .returns message queue =>
          (({ system with statics := { system.statics with queue := queue } } :
            System Thread).goto thread .outside, [.received message])

/-- `tryReceive` on the instance. -/
def System.tryReceive (system : System Thread) : System Thread × List Event :=
  match system.statics.dataProcess with
  | none => (system, [])
  | some _ =>
      let (message, queue) := MessageQueue.tryReceive system.statics.queue
      ({ system with statics := { system.statics with queue := queue } }, [.tried message])

/-- The message of a `sendMessage` that a thread comes to. A thread that is in a
call already has none. -/
def System.sends (system : System Thread) : Thread × Move → Option DataMessage
  | (thread, .sendMessage index data) =>
      if system.place thread = .outside then some { id := index, data := data } else none
  | _ => none

/-- One step of one thread. A move the thread is not ready for does nothing. -/
def System.step (system : System Thread) : Thread × Move → System Thread × List Event
  | (thread, move) =>
      match system.place thread, move with
      | .outside, .getInstance => ({ system with statics := system.statics.getInstance }, [])
      | .outside, .sendMessage index data =>
          let (system, events) := system.send { id := index, data := data }
          (system.goto thread .sent, events)
      | .sent, .proceed => (system.stop thread, [])
      | .stopping, .proceed => (system.notifyAll.goto thread .outside, [])
      | .outside, .receive => system.receive thread
      | .waiting _, .proceed => system.receive thread
      | .outside, .tryReceive => system.tryReceive
      | _, _ => (system, [])

end KcpTest.Queue
