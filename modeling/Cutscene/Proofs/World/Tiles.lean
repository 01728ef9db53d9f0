import Mathlib.Data.List.Nodup
import Mathlib.Data.List.ProdSigma
import Cutscene.Proofs.Tracker.Tallies
import Cutscene.World

/-!
# Rectangles of tiles

The operation that replaces tiles goes through the columns of a rectangle and puts the same tile at
each place of a column. The rectangle is half-open on both sides, so it is empty if a corner does
not lie beyond the other (`TileFill.Covers`). No place of it is visited twice, and what is left of a
world is the world with other tiles (`World.rectangle_filled`).
-/

namespace Cutscene

/-! ## The places of a rectangle -/

theorem mem_span {low high i : Int} : i ∈ span low high ↔ low ≤ i ∧ i < high := by
  unfold span
  rw [List.mem_map]
  constructor
  · rintro ⟨k, hk, rfl⟩
    rw [List.mem_range] at hk
    omega
  · rintro ⟨hlow, hhigh⟩
    exact ⟨(i - low).toNat, List.mem_range.2 (by omega), by omega⟩

theorem nodup_span (low high : Int) : (span low high).Nodup :=
  List.nodup_range.map fun i j (h : low + (i : Int) = low + j) => by omega

namespace TileFill

variable (t : TileFill)

/-- The place is in the rectangle, and in its layer. -/
def Covers (place : TilePlace) : Prop :=
  place.1 = t.layer.toNat ∧
    (t.start.1.toInt ≤ place.2.1 ∧ place.2.1 < t.stop.1.toInt) ∧
    (t.start.2.toInt ≤ place.2.2 ∧ place.2.2 < t.stop.2.toInt)

instance (place : TilePlace) : Decidable (t.Covers place) := by unfold Covers; infer_instance

/-- The tile that fills the rectangle: its atlas and its rotation. -/
def tile : String × Int := (t.atlas, t.rotation.toInt)

/-- The places of a rectangle are the pairs of a column and a row. -/
theorem cells_eq_product : t.cells =
    span t.start.1.toInt t.stop.1.toInt ×ˢ span t.start.2.toInt t.stop.2.toInt := rfl

theorem mem_cells {t : TileFill} {p : Int × Int} :
    p ∈ t.cells ↔ t.Covers (t.layer.toNat, p) := by
  rw [cells_eq_product, List.mem_product, mem_span, mem_span, Covers]
  simp only [true_and]

theorem nodup_cells : t.cells.Nodup := by
  rw [cells_eq_product]
  exact (nodup_span _ _).product (nodup_span _ _)

end TileFill

/-! ## Filling -/

/-- Two places in the order of places are equal in it only if they are the same. -/
theorem TilePlace.order_eq_eq_iff {p q : TilePlace} : p.order q = .eq ↔ p = q := by
  obtain ⟨layer, x, y⟩ := p
  obtain ⟨layer', x', y'⟩ := q
  simp [TilePlace.order, compareLex_eq_eq, compareOn]

namespace World

/-- One tile that is put down. -/
theorem tile?_setTile (place other : TilePlace) (atlas : String) (rotation : Int) (w : World) :
    (w.setTile place atlas rotation).tile? other =
      if place = other then some (atlas, rotation) else w.tile? other := by
  rw [tile?, setTile, Std.ExtTreeMap.getElem?_insert]
  simp only [TilePlace.order_eq_eq_iff]
  rfl

/-- The same tile at each of some places of a layer, one place after the other. -/
def setTiles (layer : Nat) (cells : List (Int × Int)) (atlas : String) (rotation : Int)
    (w : World) : World :=
  cells.foldl (fun w p => w.setTile (layer, p) atlas rotation) w

/-- The tiles after some of them have been put down. -/
theorem tile?_setTiles (layer : Nat) (cells : List (Int × Int)) (atlas : String) (rotation : Int)
    (place : TilePlace) (w : World) :
    (w.setTiles layer cells atlas rotation).tile? place =
      if place.1 = layer ∧ place.2 ∈ cells then some (atlas, rotation) else w.tile? place := by
  induction cells generalizing w with
  | nil => simp [setTiles]
  | cons cell cells ih =>
      have hcell : (layer, cell) = place ↔ place.1 = layer ∧ place.2 = cell := by
        rw [Prod.ext_iff, eq_comm, @eq_comm _ cell]
      rw [setTiles, List.foldl_cons, ← setTiles, ih, tile?_setTile, if_congr hcell rfl rfl]
      by_cases hlater : place.1 = layer ∧ place.2 ∈ cells
      · rw [if_pos hlater, if_pos ⟨hlater.1, List.mem_cons_of_mem _ hlater.2⟩]
      · rw [if_neg hlater]
        refine if_congr ?_ rfl rfl
        rw [List.mem_cons, and_or_left, or_iff_left hlater]

/-- Putting tiles down changes nothing but tiles. -/
theorem exists_setTiles_eq (layer : Nat) (cells : List (Int × Int)) (atlas : String)
    (rotation : Int) (w : World) :
    ∃ tiles, w.setTiles layer cells atlas rotation = { w with tiles } := by
  induction cells generalizing w with
  | nil => exact ⟨w.tiles, rfl⟩
  | cons cell cells ih =>
      obtain ⟨tiles, heq⟩ := ih (w.setTile (layer, cell) atlas rotation)
      exact ⟨tiles, heq⟩

end World

/-! ## What is asked of a stage -/

/-- The place at which a request puts a tile. -/
def StageCall.tilePlace? : StageCall → Option TilePlace
  | setTile layer place _ _ => some (layer, place)
  | _ => none

/-- Filling a rectangle asks for one tile at each of its places, in their order, and for nothing
else. -/
theorem tileStep_recorded {σ : Type} (stage : Stage σ) (t : TileFill) (s : σ)
    (calls : List StageCall) :
    (tileStep stage.recorded t (s, calls)).2 =
      calls ++ t.cells.map fun p => .setTile t.layer.toNat p t.atlas t.rotation.toInt := by
  unfold tileStep
  induction t.cells generalizing s calls with
  | nil => rw [List.map_nil, List.append_nil]; rfl
  | cons cell cells ih =>
      rw [List.foldl_cons, List.map_cons, List.append_cons]
      exact ih _ _

namespace World

/-- Each place of a rectangle is asked for once, and no other place is. -/
theorem count_tilePlace? (load : String → Reported Scene) (t : TileFill) (w : World)
    (place : TilePlace) :
    ((tileStep (stage load).recorded t (w, [])).2.filterMap StageCall.tilePlace?).count place =
      if t.Covers place then 1 else 0 := by
  have hplaces : (tileStep (stage load).recorded t (w, [])).2.filterMap StageCall.tilePlace? =
      t.cells.map (Prod.mk t.layer.toNat) := by
    rw [tileStep_recorded, List.nil_append, List.filterMap_map]
    exact congrFun List.filterMap_eq_map t.cells
  have hcovers : place ∈ t.cells.map (Prod.mk t.layer.toNat) ↔ t.Covers place := by
    rw [List.mem_map]
    constructor
    · rintro ⟨p, hp, rfl⟩
      exact TileFill.mem_cells.1 hp
    · intro h
      have hplace : (t.layer.toNat, place.2) = place := Prod.ext h.1.symm rfl
      exact ⟨place.2, TileFill.mem_cells.2 (hplace.symm ▸ h), hplace⟩
  rw [hplaces, (t.nodup_cells.map (fun p q h => (Prod.mk.inj h).2)).count]
  exact if_congr hcovers rfl rfl

/-- A rectangle of tiles is filled. At each of its places in its layer, and nowhere else, the tile
is put down, once, whatever was there before, so that at a place that had another tile or none the
new one is found exactly in the rectangle; every tile outside is what it was. Nothing else of the
world is changed, and the next operation follows. -/
theorem rectangle_filled (load : String → Reported Scene) (t : TileFill) (event : Event)
    (position now : Nat) (entering : Bool) (progress : Progress) (voices : Voices) (w : World) :
    let r := execute (stage load) event position (.tileReplace t) now entering progress voices w
    let asked := (execute (stage load).recorded event position (.tileReplace t) now entering
      progress voices (w, [])).state.2
    (∀ place, r.state.tile? place = if t.Covers place then some t.tile else w.tile? place) ∧
      (∀ place, w.tile? place ≠ some t.tile →
        (r.state.tile? place = some t.tile ↔ t.Covers place)) ∧
      (∀ place, (asked.filterMap StageCall.tilePlace?).count place =
        if t.Covers place then 1 else 0) ∧
      { r.state with tiles := w.tiles } = w ∧
      r.flow = .next ∧ r.voices = voices ∧ r.queued = none := by
  intro r asked
  have hstate : r.state = w.setTiles t.layer.toNat t.cells t.atlas t.rotation.toInt := rfl
  have htile : ∀ place, r.state.tile? place =
      if t.Covers place then some t.tile else w.tile? place := by
    intro place
    rw [hstate, tile?_setTiles]
    refine if_congr ?_ rfl rfl
    rw [TileFill.mem_cells, TileFill.Covers, TileFill.Covers]
    simp only [true_and]
  refine ⟨htile, fun place hother => ?_, count_tilePlace? load t w, ?_, rfl, rfl, rfl⟩
  · rw [htile]
    split
    · rename_i hcovers
      exact iff_of_true rfl hcovers
    · rename_i houtside
      exact iff_of_false hother houtside
  · obtain ⟨tiles, heq⟩ := exists_setTiles_eq t.layer.toNat t.cells t.atlas t.rotation.toInt w
    rw [hstate, heq]

end World

end Cutscene
