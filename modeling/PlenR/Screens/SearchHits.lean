import PlenR.Foundation.Snapshots
import PlenR.Screens.OrganiseEvent

/-! The search of `AddInvitees.js` while its text is typed.

Every change of the text registers a listener of the users collection with the new
text, and the listeners of earlier texts stay. Each report of any of them replaces
the hits, so the hits may be those of an earlier text. While every text contains the
one before, an earlier text matches whomever a later one does: late reports show
too many people, and miss nobody.
-/

set_option autoImplicit false

namespace PlenR.Screens.SearchHits

open Foundation.Run Foundation.Snapshots AddInvitees

/-- The screen and the text in its box; beside them stand the documents of the last report. -/
structure Search where
  currentUserId : String
  text : String
  inviteeHits : List UserDoc
  listeners : List (Listener String UserDoc)
  reported : List UserDoc

structure World where
  users : List UserDoc
  search : Search

def World.initial (users : List UserDoc) (currentUserId : String) : World where
  users := users
  search := { currentUserId := currentUserId, text := "", inviteeHits := [], listeners := [], reported := [] }

inductive Action where
  /-- Somebody signs in. -/
  | signIn (doc : UserDoc)
  | changeText (text : String)
  | snapshot (position : ℕ) (docs : List UserDoc)

def Search.changeText (text : String) (search : Search) : Search :=
  { search with text := text, listeners := search.listeners ++ [subscribe text] }

/-- The callback of `retrieveInvitees`, called with the text of its listener. -/
def Search.snapshot (text : String) (docs : List UserDoc) (search : Search) : Search :=
  { search with inviteeHits := retrieveInvitees search.currentUserId text docs, reported := docs }

def step (world : World) : Action → Option World
  | .signIn doc => some { world with users := Store.setDoc UserDoc.id world.users doc }
  | .changeText text => some { world with search := world.search.changeText text }
  | .snapshot position docs =>
      (deliver (fun _ => world.users) world.search.listeners position docs).map fun (text, listeners) =>
        { world with search := { world.search with listeners := listeners }.snapshot text docs }

/-- Of the users reported last everyone is hit who matches the text in the box, and nobody hits oneself. -/
structure MissesNobody (search : Search) : Prop where
  found : retrieveInvitees search.currentUserId search.text search.reported ⊆ search.inviteeHits
  others : ∀ hit ∈ search.inviteeHits, hit ∈ search.reported ∧ hit.id ≠ search.currentUserId

def TypesOn (world : World) : Action → Prop
  | .changeText text => includes text world.search.text = true
  | _ => True

instance (world : World) (action : Action) : Decidable (TypesOn world action) := by
  unfold TypesOn
  split <;> infer_instance

/-! ## Texts that contain each other -/

section Texts
variable {text part middle : String}

theorem includes_iff : includes text part = true ↔ part.toList <:+: text.toList := decide_eq_true_iff

theorem includes_refl (text : String) : includes text text = true := includes_iff.mpr (List.infix_refl _)

theorem includes_trans (outer : includes text middle = true) (inner : includes middle part = true) :
    includes text part = true :=
  includes_iff.mpr ((includes_iff.mp inner).trans (includes_iff.mp outer))

theorem retrieveInvitees_subset (contains : includes text part = true) (currentUserId : String) (docs : List UserDoc) :
    retrieveInvitees currentUserId text docs ⊆ retrieveInvitees currentUserId part docs := by
  intro doc hit
  obtain ⟨listed, matched⟩ := List.mem_filter.mp hit
  apply List.mem_filter.mpr
  rw [Bool.and_eq_true, Bool.or_eq_true] at matched ⊢
  refine ⟨listed, matched.1, ?_⟩
  cases matched.2 with
  | inl name => exact .inl (includes_trans name contains)
  | inr email => exact .inr (includes_trans email contains)

end Texts

structure Kept (search : Search) : Prop where
  listeners : ∀ listener ∈ search.listeners, includes search.text listener.query = true
  hits : ∃ text, includes search.text text = true ∧
    search.inviteeHits = retrieveInvitees search.currentUserId text search.reported

theorem Kept.missesNobody {search : Search} (kept : Kept search) : MissesNobody search := by
  obtain ⟨text, contains, hits⟩ := kept.hits
  constructor
  case found =>
    rw [hits]
    exact retrieveInvitees_subset contains _ _
  case others =>
    intro hit member
    rw [hits] at member
    obtain ⟨listed, matched⟩ := List.mem_filter.mp member
    exact ⟨listed, of_decide_eq_true (Bool.and_eq_true_iff.mp matched).1⟩

theorem kept_step {world next : World} (kept : Kept world.search) {action : Action} (typesOn : TypesOn world action)
    (moved : step world action = some next) : Kept next.search := by
  cases action with
  | signIn doc =>
    cases moved
    exact kept
  | changeText text =>
    cases moved
    obtain ⟨earlier, contains, hits⟩ := kept.hits
    constructor
    case listeners =>
      simp only [Search.changeText, List.forall_mem_append, List.forall_mem_singleton]
      exact ⟨fun listener member => includes_trans typesOn (kept.listeners listener member), includes_refl text⟩
    case hits => exact ⟨earlier, includes_trans typesOn contains, hits⟩
  | snapshot position docs =>
    obtain ⟨⟨text, listeners⟩, reported, rfl⟩ := Option.map_eq_some_iff.mp moved
    have report := deliver_report reported
    constructor
    case listeners =>
      intro listener member
      obtain ⟨before, registered, same⟩ := report.query_mem member
      exact same ▸ kept.listeners before registered
    case hits =>
      obtain ⟨listener, found, same⟩ := Option.map_eq_some_iff.mp report.source
      exact ⟨text, same ▸ kept.listeners listener (List.mem_of_getElem? found), rfl⟩

/-- While every text contains the one before, whichever listeners report and whoever
signs in meanwhile: everyone of the last report who matches the text in the box is
among the hits, and nobody is shown to oneself. -/
theorem missesNobody_of_typesOn (users : List UserDoc) (currentUserId : String) {actions : List Action}
    (typed : Guarded step TypesOn (.initial users currentUserId) actions) :
    Always step (fun world => MissesNobody world.search) (.initial users currentUserId) actions := by
  have keep : ∀ world action next, Kept world.search → TypesOn world action → step world action = some next →
      Kept next.search :=
    fun world action next kept typesOn moved => kept_step kept typesOn moved
  have start : Kept (World.initial users currentUserId).search :=
    ⟨List.forall_mem_nil _, "", includes_refl "", rfl⟩
  exact (always_of_guarded keep start typed).mono fun world kept => kept.missesNobody

/-! ## Looking for Bob -/

def people : List UserDoc := [⟨"ann", "Ann", "ann@mail"⟩, ⟨"bob", "Bob", "bob@mail"⟩, ⟨"bo", "Bo", "bo@mail"⟩]

def lateReport : List Action :=
  [.changeText "Bo", .changeText "Bob", .snapshot 1 people, .snapshot 0 people]

theorem missesNobody_of_typesOn_bob :
    Always step (fun world => MissesNobody world.search) (.initial people "ann") lateReport ∧
      (run step (.initial people "ann") lateReport).map (fun world => world.search.inviteeHits.map UserDoc.id) =
        some ["bob", "bo"] :=
  ⟨missesNobody_of_typesOn people "ann" (by decide), by decide⟩

end PlenR.Screens.SearchHits
