/-
# Listings

`get_listings` cuts a page out of the list of all offer ids and keeps the active offers of
it.  The ids in the list are 1, 2, 3, ..., each with a stored offer, so that no request
panics (`getListings_eq`) and the pages together are the active offers in the order of their
ids (`listings_exact`).
-/
import CarbonVeritas.OfferAccounts
import CarbonVeritas.Pages

namespace CarbonVeritas

open Transition

/-! ## One page -/

namespace Marketplace

variable {m : Marketplace}

/-- The offer with the id `o`, if it is active. -/
def activeAt (m : Marketplace) (o : ℕ) : Option Offer :=
  (m.offers o).filter fun offer => offer.status = .active

/-- A listing shows an offer that is stored and active. -/
theorem activeAt_eq_some {o : ℕ} {offer : Offer} :
    m.activeAt o = some offer ↔ m.offers o = some offer ∧ offer.status = .active := by
  unfold activeAt
  rw [Option.filter_eq_some_iff, decide_eq_true_eq]

/-- The ids that one request reads. -/
def listedIds (m : Marketplace) (offset limit : ℕ) : List ℕ :=
  (m.allOffers.take (min (u32SaturatingAdd offset (min limit MAX_LISTINGS_PAGE))
    m.allOffers.length)).drop offset

/-- If the listed ids are stored, a request returns the active offers among the ids it reads. -/
theorem getListings_eq (hstored : ∀ o ∈ m.allOffers, (m.offers o).isSome = true)
    (methodology geography : Option SorobanString) (price : Option ℤ) (offset limit : ℕ) :
    m.getListings methodology geography price offset limit =
      .ok ((m.listedIds offset limit).filterMap m.activeAt) := by
  have hread : (m.listedIds offset limit).mapM m.readOffer =
      .ok ((m.listedIds offset limit).filterMap m.offers) := by
    refine mapM_eq_ok fun o ho => ?_
    obtain ⟨offer, hoffer⟩ := Option.isSome_iff_exists.mp
      (hstored o (List.mem_of_mem_take (List.mem_of_mem_drop ho)))
    exact ⟨offer, orPanic_eq_ok.mpr hoffer, hoffer⟩
  show m.readAllOffers offset limit = _
  unfold readAllOffers
  by_cases hend : m.allOffers.length ≤ offset
  · have hnone : m.listedIds offset limit = [] := by
      refine List.drop_eq_nil_of_le ?_
      rw [List.length_take]
      omega
    rw [hnone]
    exact if_pos hend
  · have hfilter : ((m.listedIds offset limit).filterMap m.offers).filter
        (fun offer => offer.status = .active) = (m.listedIds offset limit).filterMap m.activeAt :=
      List.filter_filterMap ..
    rw [← hfilter]
    refine (if_neg hend).trans ?_
    show ((m.listedIds offset limit).mapM m.readOffer >>= _) = _
    rw [hread]
    rfl

/-- A request reads entries of the page that its clamped limit asks for. -/
theorem listedIds_prefix (m : Marketplace) (offset limit : ℕ) :
    m.listedIds offset limit <+: Pages.page m.allOffers offset (min limit MAX_LISTINGS_PAGE) := by
  refine Pages.drop_take_prefix_page _ ?_
  unfold u32SaturatingAdd
  omega

/-- It reads the whole page, since the length of the list is a `u32`. -/
theorem listedIds_eq (hlen : m.allOffers.length < 2 ^ 32) {limit : ℕ}
    (hlimit : limit ≤ MAX_LISTINGS_PAGE) (offset : ℕ) :
    m.listedIds offset limit = Pages.page m.allOffers offset limit := by
  unfold listedIds u32SaturatingAdd
  rw [Nat.min_eq_left hlimit]
  exact Pages.drop_take_saturating (by omega) offset limit

/-- The pages of the size `n`, at the offsets `0, n, 2n, ...` up to the number of offers. -/
def listingPages (m : Marketplace) (n : ℕ) : Result (List (List Offer)) :=
  (List.range (m.offerCounter / n + 1)).mapM fun i => m.getListings none none none (i * n) n

theorem listingPages_eq (hstored : ∀ o ∈ m.allOffers, (m.offers o).isSome = true)
    (hcounter : m.allOffers.length = m.offerCounter) {n : ℕ} (hmax : n ≤ MAX_LISTINGS_PAGE)
    (hlen : m.allOffers.length < 2 ^ 32) :
    m.listingPages n = .ok ((List.range (m.allOffers.length / n + 1)).map fun i =>
      (Pages.page m.allOffers (i * n) n).filterMap m.activeAt) := by
  have hpages := mapM_eq_ok (f := fun i => m.getListings none none none (i * n) n)
    (g := fun i => some ((Pages.page m.allOffers (i * n) n).filterMap m.activeAt))
    (l := List.range (m.allOffers.length / n + 1))
    fun i _ => ⟨_, by rw [getListings_eq hstored, listedIds_eq hlen hmax], rfl⟩
  rw [List.filterMap_eq_map'] at hpages
  rw [listingPages, ← hcounter]
  exact hpages

end Marketplace

/-! ## The list of all offers -/

namespace World

variable {T : Type} {ch : Chain T} {w : World T} {tx : Tx ch}

/-- The list holds the ids `1, 2, 3, ...` of all offers. -/
def ListsAll (w : World T) : Prop :=
  w.marketplace.allOffers = List.range' 1 w.marketplace.offerCounter

/-- Every transaction keeps all the offers listed. -/
theorem ListsAll.apply (h : ListsAll w) (tx : Tx ch) : ListsAll (apply ch w tx) := by
  refine apply_rule h fun w' hexec => ?_
  have hstep := exec_step hexec
  generalize tx.call = call at hstep
  cases hstep with
  | registry _ _ => exact h
  | tracker _ => exact h
  | bridge _ => exact h
  | marketplace hchange =>
      cases hchange with
      | keep hm _ _ =>
          subst hm
          exact h
      | init _ hm _ =>
          subst hm
          exact h
      | buy _ hm _ =>
          subst hm
          exact h
      | cancel _ hm _ =>
          subst hm
          exact h
      | create _ hm _ =>
          subst hm
          show w.marketplace.allOffers ++ [w.marketplace.offerCounter + 1] =
            List.range' 1 (w.marketplace.offerCounter + 1)
          rw [h, List.range'_1_concat, Nat.add_comm 1]

/-- In every run all the offers are listed. -/
theorem listsAll_run (ch : Chain T) (tokens : T) (ts : List (Tx ch)) :
    ListsAll (run (apply ch) (genesis tokens) ts) :=
  run_invariant (C := fun _ _ => True) (fun _ tx h _ => h.apply tx) rfl fun _ _ => trivial

/-- An offer is stored under its own id. -/
theorem Accounted.offerId_eq {hist : List (World T × Tx ch)} {o : ℕ} {offer : Offer}
    (h : Accounted ch hist o offer) : offer.offerId = o := by
  obtain ⟨p, -, -, seller, c, price, amount, currency, expiry, -, hterms⟩ := h.created
  unfold SameTerms at hterms
  rw [hterms]
  rfl

section Listed

variable {hist : List (World T × Tx ch)}

theorem ListsAll.length_eq (h : ListsAll w) :
    w.marketplace.allOffers.length = w.marketplace.offerCounter := by
  rw [h, List.length_range']

theorem ListsAll.stored (h : ListsAll w) (hbook : OfferBook ch hist w) :
    ∀ o ∈ w.marketplace.allOffers, (w.marketplace.offers o).isSome = true := by
  intro o ho
  rw [h, List.mem_range'_1] at ho
  exact (hbook.stored o).mpr (by omega)

/-- An offer is listed under its own id. -/
theorem OfferBook.offerId_of_activeAt (hbook : OfferBook ch hist w) {o : ℕ} {offer : Offer}
    (h : w.marketplace.activeAt o = some offer) : offer.offerId = o :=
  (hbook.accounted o offer (Marketplace.activeAt_eq_some.mp h).1).offerId_eq

/-- The list leads to every active offer. -/
theorem mem_listed (h : ListsAll w) (hbook : OfferBook ch hist w) {offer : Offer} :
    offer ∈ w.marketplace.allOffers.filterMap w.marketplace.activeAt ↔
      w.marketplace.offers offer.offerId = some offer ∧ offer.status = .active := by
  rw [List.mem_filterMap]
  constructor
  · rintro ⟨o, -, ho⟩
    rw [hbook.offerId_of_activeAt ho]
    exact Marketplace.activeAt_eq_some.mp ho
  · intro hactive
    refine ⟨offer.offerId, ?_, Marketplace.activeAt_eq_some.mpr hactive⟩
    have hle := hbook.le_counter hactive.1
    rw [h, List.mem_range'_1]
    omega

/-- The list leads to the offers in the order of their ids. -/
theorem pairwise_listed (h : ListsAll w) (hbook : OfferBook ch hist w) :
    (w.marketplace.allOffers.filterMap w.marketplace.activeAt).Pairwise fun a b =>
      a.offerId < b.offerId := by
  rw [h, List.pairwise_filterMap]
  refine List.Pairwise.imp ?_ (List.pairwise_lt_range' (s := 1))
  intro a b hab offer hoffer offer' hoffer'
  rw [hbook.offerId_of_activeAt hoffer, hbook.offerId_of_activeAt hoffer']
  exact hab

end Listed

/-! ## The main theorem -/

/-- What the requests for listings return. -/
structure ExactListings (m : Marketplace) : Prop where
  /-- the pages together are the active offers, once each, by increasing id -/
  pages : ∀ n, 1 ≤ n → n ≤ MAX_LISTINGS_PAGE → m.allOffers.length < 2 ^ 32 →
    ∃ pages, m.listingPages n = .ok pages ∧
      (∀ offer, offer ∈ pages.flatten ↔
        m.offers offer.offerId = some offer ∧ offer.status = .active) ∧
      pages.flatten.Pairwise fun a b => a.offerId < b.offerId
  /-- no request panics, returns too much, or leaves the list -/
  page : ∀ methodology geography price offset limit, ∃ offers,
    m.getListings methodology geography price offset limit = .ok offers ∧
      offers.length ≤ MAX_LISTINGS_PAGE ∧
      ∀ offer ∈ offers,
        offer.offerId ∈ Pages.page m.allOffers offset (min limit MAX_LISTINGS_PAGE)

/-- **Listings.**  In every state that a run reaches, the pages of every admitted size are the
active offers in the order of their ids, and every request returns at most a page of them. -/
theorem listings_exact (ch : Chain T) (tokens : T) (ts : List (Tx ch)) :
    ExactListings (run (apply ch) (genesis tokens) ts).marketplace := by
  have hlist := listsAll_run ch tokens ts
  have hbook := offerBook_run ch tokens ts
  generalize steps (apply ch) (genesis tokens) ts = hist at hbook
  generalize run (apply ch) (genesis tokens) ts = w at hlist hbook ⊢
  have hstored := hlist.stored hbook
  constructor
  · intro n hn hmax hlen
    have hflat := Pages.flatten_filterMap_pages w.marketplace.activeAt
      (Pages.length_le_pages w.marketplace.allOffers hn)
    refine ⟨_, Marketplace.listingPages_eq hstored hlist.length_eq hmax hlen, ?_, ?_⟩
    · intro offer
      rw [hflat]
      exact mem_listed hlist hbook
    · rw [hflat]
      exact pairwise_listed hlist hbook
  · intro methodology geography price offset limit
    refine ⟨_, Marketplace.getListings_eq hstored methodology geography price offset limit, ?_, ?_⟩
    · -- the limit is clamped before the ids are read
      have hread := (Marketplace.listedIds_prefix w.marketplace offset limit).length_le
      have hpage := Pages.length_page_le w.marketplace.allOffers offset
        (min limit MAX_LISTINGS_PAGE)
      have hkeep := List.length_filterMap_le w.marketplace.activeAt
        (w.marketplace.listedIds offset limit)
      omega
    · intro offer hoffer
      obtain ⟨o, ho, hactive⟩ := List.mem_filterMap.mp hoffer
      rw [hbook.offerId_of_activeAt hactive]
      exact (Marketplace.listedIds_prefix w.marketplace offset limit).subset ho

/-- After one creation, the pages of one entry: an empty last page follows the offer. -/
example : ((run (apply Sample.chain) Sample.start
    (Sample.setup ++ [Sample.offerOne])).marketplace.listingPages 1).map
      (List.map (List.map Offer.offerId)) = .ok [[1], []] := by
  rfl

end World

end CarbonVeritas
