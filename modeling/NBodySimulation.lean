import NBodySimulation.Actors.BodySimulator
import NBodySimulation.Spatial.Insertion
import NBodySimulation.Quadtree.Cells
import NBodySimulation.Quadtree.Represent
import NBodySimulation.Quadtree.Nodes
import NBodySimulation.Quadtree.Construct
import NBodySimulation.Actors.Scene
import NBodySimulation.Quadtree.Contents
import NBodySimulation.Dynamics.Velocity
import NBodySimulation.Dynamics.Moving
import NBodySimulation.Dynamics.Conservation
import NBodySimulation.Forces.Traversal
import NBodySimulation.Dynamics.Kinematics
import NBodySimulation.Forces.StoredTrees
import NBodySimulation.Dynamics.OrderIndependence
import NBodySimulation.Quadtree.Termination
import NBodySimulation.Forces.Counting
import NBodySimulation.Forces.SelfAttraction
import NBodySimulation.Forces.NoApproximation
import NBodySimulation.Concurrency.ForcePhases
import NBodySimulation.Quadtree.CentreOfMass
import NBodySimulation.Quadtree.Tiling
import NBodySimulation.Quadtree.InsertLog
import NBodySimulation.Quadtree.Consistency
import NBodySimulation.Quadtree.Division
import NBodySimulation.Quadtree.Accounting
import NBodySimulation.Dynamics.Softening
import NBodySimulation.Dynamics.GravityCopies
import NBodySimulation.Forces.Pruning
import NBodySimulation.Memory.Footprint
import NBodySimulation.Memory.StoredTree
import NBodySimulation.Objects.QuadTreeMemory
import NBodySimulation.Quadtree.MemoryDelete
import NBodySimulation.Actors.SimulatorMemory
import NBodySimulation.Dynamics.MemoryRuns
import NBodySimulation.Quadtree.Depth
import NBodySimulation.Forces.Cost
import NBodySimulation.Dynamics.Edits
import NBodySimulation.Dynamics.Speeds
import NBodySimulation.Dynamics.Spawning
import NBodySimulation.Dynamics.Units
import NBodySimulation.Concurrency.Ticks
