import MultiplayChess.Framework.System
import MultiplayChess.Framework.Walk
import MultiplayChess.Server.Failures
import MultiplayChess.Server.Connections
import MultiplayChess.Server.GameIds
import MultiplayChess.Server.Announcements
import MultiplayChess.Server.Interleaving
import MultiplayChess.Framework.Stopwatch
import MultiplayChess.Server.Attribution
import MultiplayChess.Client.Handlers
import MultiplayChess.Client.News
import MultiplayChess.Client.Agreement
import MultiplayChess.Client.Bookkeeping
import MultiplayChess.Server.Conservation
import MultiplayChess.Framework.Counting
import MultiplayChess.Server.Counts
import MultiplayChess.Common.Network
import MultiplayChess.Common.Delivery
import MultiplayChess.Server.Receiving
import MultiplayChess.Common.Wire
import MultiplayChess.Server.Sizes
import MultiplayChess.Server.Limits
import MultiplayChess.Server.Copies
import MultiplayChess.Server.Readings
import MultiplayChess.Client.Pgn
import MultiplayChess.Client.Replay
import MultiplayChess.Client.Resignation
import MultiplayChess.Client.Results
import MultiplayChess.Client.Screens
import MultiplayChess.Client.Session
import MultiplayChess.Client.Skew
import MultiplayChess.Client.Navigation
import MultiplayChess.Client.Rematch
import MultiplayChess.Client.LiveGame
import MultiplayChess.Common.Effects
import MultiplayChess.Common.Endings
import MultiplayChess.Common.Rights
import MultiplayChess.Common.Generators
import MultiplayChess.Common.Unvalidated
import MultiplayChess.Chess.Mirror
import MultiplayChess.Common.Symmetry
import MultiplayChess.Common.Fen
import MultiplayChess.Common.Placement
import MultiplayChess.Chess.Endings
import MultiplayChess.Server.Classification
import MultiplayChess.Client.GameOver
import MultiplayChess.Client.Names
import MultiplayChess.Server.Matching
import MultiplayChess.Client.Dialogs
import MultiplayChess.Client.Notices
import MultiplayChess.Common.EnPassant
import MultiplayChess.Client.Linked
import MultiplayChess.Client.Running
import MultiplayChess.Chess.Progress
import MultiplayChess.Server.GameLength
import MultiplayChess.Chess.Club
import MultiplayChess.Chess.Conversation
import MultiplayChess.Server.Club
import MultiplayChess.Server.Hosting
import MultiplayChess.Server.Simulation
import MultiplayChess.Client.GameScreen
import MultiplayChess.Client.Highlights
import MultiplayChess.Client.Pointing
import MultiplayChess.Client.Entering
import MultiplayChess.Client.Sheets
import MultiplayChess.Client.SavedGames
