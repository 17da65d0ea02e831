import Mathlib.Algebra.Order.Field.Basic
import Mathlib.Algebra.Order.Field.Rat

/-!
# Vectors of floats

* `Geometry.compare`: score and distance of two vectors. The root is a parameter.
* `Geometry.score_le_score_iff`: a better score is a smaller distance, by every metric.
-/

namespace Scenara.Core

/-- A float: `none` is infinite or not a number. -/
abbrev Scalar := Option ℚ

/-- Every value is finite. -/
def finite (vector : List Scalar) : Bool := vector.all Option.isSome

/-- The values of a finite vector. -/
def numbers (vector : List Scalar) : List ℚ := vector.filterMap id

/-- The inner product. -/
def dot (x y : List ℚ) : ℚ := (List.zipWith (· * ·) x y).foldr (· + ·) 0

theorem dot_comm (x y : List ℚ) : dot x y = dot y x := by
  unfold dot
  rw [List.zipWith_comm_of_comm mul_comm]

/-- What a vector is compared by. -/
inductive Metric where
  | cosine
  | l2
  | innerProduct
  deriving DecidableEq

/-- The square root. -/
structure Geometry where
  sqrt : ℚ → ℚ
  sqrt_nonneg : ∀ x, 0 ≤ sqrt x

namespace Geometry

variable (g : Geometry)

/-- The length of a vector. -/
def norm (x : List ℚ) : ℚ := g.sqrt (dot x x)

/-- The cosine of two vectors that are not zero. -/
def cosine (x y : List ℚ) : ℚ := max (-1) (min 1 (dot x y / (g.norm x * g.norm y)))

/-- The distance between two points. -/
def euclidean (x y : List ℚ) :
    ℚ := g.sqrt ((List.zipWith (fun a b => (a - b) * (a - b)) x y).foldr (· + ·) 0)

/-- The distance by the metric. -/
def distance : Metric → List ℚ → List ℚ → ℚ
  | .cosine, x, y => 1 - g.cosine x y
  | .l2, x, y => g.euclidean x y
  | .innerProduct, x, y => -dot x y

/-- The score and the distance by the metric. -/
def compare : Metric → List ℚ → List ℚ → ℚ × ℚ
  | .cosine, x, y => (g.cosine x y, 1 - g.cosine x y)
  | .l2, x, y => (1 / (1 + g.euclidean x y), g.euclidean x y)
  | .innerProduct, x, y => (dot x y, -dot x y)

/-- The roots of the squares of small numbers. -/
def squares : Geometry where
  sqrt x := ((List.range 10).find? fun n : Nat => decide ((n : ℚ) * n = x)).elim 0 fun n => (n : ℚ)
  sqrt_nonneg x := by
    cases (List.range 10).find? fun n : Nat => decide ((n : ℚ) * n = x)
    · exact le_rfl
    · exact Nat.cast_nonneg _

theorem compare_snd (metric : Metric) (x y : List ℚ) :
    (g.compare metric x y).2 = g.distance metric x y := by
  cases metric <;> rfl

theorem cosine_comm (x y : List ℚ) : g.cosine x y = g.cosine y x := by
  unfold cosine
  rw [dot_comm x y, mul_comm (g.norm x)]

theorem euclidean_comm (x y : List ℚ) : g.euclidean x y = g.euclidean y x := by
  have hsquare : ∀ a b : ℚ, (a - b) * (a - b) = (b - a) * (b - a) := fun a b => by
    rw [← neg_sub b a, neg_mul_neg]
  unfold euclidean
  rw [List.zipWith_comm_of_comm hsquare]

theorem distance_comm (metric : Metric) (x y : List ℚ) :
    g.distance metric x y = g.distance metric y x := by
  cases metric with
  | cosine => exact congrArg (1 - ·) (g.cosine_comm x y)
  | l2 => exact g.euclidean_comm x y
  | innerProduct => exact congrArg (-·) (dot_comm x y)

end Geometry

/-- The score of a distance. -/
def Metric.score : Metric → ℚ → ℚ
  | .cosine, distance => 1 - distance
  | .l2, distance => 1 / (1 + distance)
  | .innerProduct, distance => -distance

namespace Geometry

variable (g : Geometry)

theorem compare_fst (metric : Metric) (x y : List ℚ) :
    (g.compare metric x y).1 = metric.score (g.distance metric x y) := by
  cases metric with
  | cosine => exact (sub_sub_cancel 1 _).symm
  | l2 => rfl
  | innerProduct => exact (neg_neg _).symm

theorem score_le_score_iff (metric : Metric) (x y x' y' : List ℚ) :
    metric.score (g.distance metric x y) ≤ metric.score (g.distance metric x' y') ↔
      g.distance metric x' y' ≤ g.distance metric x y := by
  cases metric with
  | cosine => exact sub_le_sub_iff_left 1
  | l2 =>
    have hpos : ∀ x y : List ℚ, 0 < 1 + g.euclidean x y := fun x y =>
      add_pos_of_pos_of_nonneg one_pos (g.sqrt_nonneg _)
    exact (one_div_le_one_div (hpos x y) (hpos x' y')).trans (add_le_add_iff_left 1)
  | innerProduct => exact neg_le_neg_iff

end Geometry

end Scenara.Core
