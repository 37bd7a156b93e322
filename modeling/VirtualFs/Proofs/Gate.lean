import VirtualFs.Proofs.Alone

namespace VirtualFs

variable {σ τ : Type}

/-- A service with a gate in front of its answers. -/
structure Gated (σ : Type) where
  state : σ
  isOpen : Bool := false

namespace Service

variable (service : Service σ) (waits : Request → Bool)

/-- Hand out an answer, or keep it for as long as the gate is closed. -/
def deliver (request : Request) (answer : request.Answer) (gated : Gated σ) :
    Turn (Gated σ) request.Answer request.Answer :=
  if waits request && !gated.isOpen then ⟨.waiting answer, [], gated⟩ else ⟨.ready answer, [], gated⟩

/-- A backend that serves each request when it is issued. The answers to some requests have to wait
    at the gate. -/
def behindGate : Backend (Gated σ) where
  Flight request := request.Answer
  offer gated := service.offer gated.state
  now gated := service.now gated.state
  issue request gated :=
    let (answer, state) := service.answer request gated.state
    deliver waits request answer { gated with state }
  resume request answer gated := deliver waits request answer gated
  abandon _ _ gated := gated

variable {service waits} {behaviour : Behaviour τ} {shows : σ → τ → Prop}

theorem brings_deliver {request : Request} {answer : request.Answer} {gated : Gated σ}
    {before : Option request.Answer} {t t' : τ}
    (hmoves : behaviour.Moves request before t (some answer) t') (hshows : shows gated.state t') :
    (service.behindGate waits).Brings behaviour (fun gated t => shows gated.state t)
      (fun flight owed => owed = some flight) before t (deliver waits request answer gated) := by
  refine ⟨some answer, t', hmoves, ?_⟩
  rw [deliver]
  split
  · exact ⟨hshows, rfl⟩
  · exact ⟨hshows, rfl⟩

/-- Waiting at the gate takes nothing from the way in which a service behaves. -/
def Obeys.realization (hobeys : service.Obeys behaviour shows) :
    Realization (service.behindGate waits) behaviour where
  shows gated t := shows gated.state t
  Owes flight owed := owed = some flight
  offer hshows := hobeys.offer hshows
  issue := by
    intro gated t request huses hshows
    obtain ⟨t', hpermits, hshows'⟩ := hobeys.answer request huses hshows
    exact brings_deliver (.acts hpermits) hshows'
  resume := by
    intro gated t request flight owed _ howes hshows
    subst howes
    exact brings_deliver (.waits _ t) hshows
  abandon _ _ hshows := hshows

end Service

end VirtualFs
